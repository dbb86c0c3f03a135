import Fluent.Interpreter
import Fluent.Proofs.Evaluation.Serving
import Fluent.Proofs.Evaluation.Upholding

/-!
# What recording hosts uphold

Where the host's handlers record and the member functions are those of collections, evaluations keep
things in order. No native function is called where no binding has one. The proof follows the
meaning of expressions.

Main statements: `steadies_callFunction`, a call releases the scope that it makes;
`steadying_evaluate` and `steadies_render`.
-/
namespace Fluent

open Arena

namespace Engine

open EvalM

variable {σ : Type}

/-- The engine's member functions are those of collections, and its other handlers record. -/
structure OnlyRecords (engine : Engine σ) : Prop where
  members : engine.HasBuiltInMembers
  constructors : ∀ name construct, engine.registry.constructors.find? name = some construct →
    ∃ kind, construct = Recording.constructor kind
  decorators : ∀ name decorate, engine.registry.decorators.find? name = some decorate →
    ∃ kind, decorate = Recording.decorator kind

variable {engine : Engine σ}

/-- But for its native functions, an engine that records is honest. -/
theorem OnlyRecords.honest (h : engine.OnlyRecords) :
    Honest { engine with native := fun _ _ => throw (.unknownIdentifier "") } [] :=
  honest_of_recording h.members h.constructors h.decorators fun _ _ _ _ answered => by
    cases answered

theorem OnlyRecords.stems_construct (h : engine.OnlyRecords) {name : String}
    {construct : Constructor σ} (found : engine.registry.constructorOf name = .ok construct)
    {arguments : List (Argument Value)} {host : Host σ} {artifact : Artifact Value}
    (answered : ((construct arguments).run.run host).1 = .ok artifact) :
    Stems (argumentValues arguments) [.artifact artifact] := by
  have registered := Registry.find?_of_constructorOf found
  have covers := h.honest.constructors name construct registered arguments host artifact answered
  have plain : (Value.artifact artifact).hasNative = false := by simp [Value.hasNative]
  grind

theorem OnlyRecords.stems_decorate (h : engine.OnlyRecords) {name : String}
    {decorate : Decorator σ} (found : engine.registry.decoratorOf name = .ok decorate)
    {arguments : List (Argument Value)} {artifact made : Artifact Value} {host : Host σ}
    (answered : ((decorate arguments artifact).run.run host).1 = .ok made) :
    Stems (.artifact artifact :: argumentValues arguments) [.artifact made] := by
  have registered := Registry.find?_of_decoratorOf found
  have covers := h.honest.decorators name decorate registered arguments artifact host made answered
  have plain : (Value.artifact made).hasNative = false := by simp [Value.hasNative]
  grind

/-- In every scope, the evaluation keeps things in order, and answers a value. -/
def Steadying (o : Outset σ) (evaluation : Deferred σ Value) : Prop :=
  ∀ scope, Steadies o [] [] (evaluation scope) fun v => [v]

variable {o : Outset σ} {around : List Value}

/-- Arguments that have been resolved are held while the others are. -/
theorem steadies_resolveFrom (scope : ScopeId) (arguments : List (Argument (Deferred σ Value)))
    (h : ∀ argument ∈ arguments, Steadying o argument.value) (index : Nat) :
    Steadies o [] [] (resolveFrom scope index arguments) argumentValues := by
  induction arguments generalizing index with
  | nil => exact .pure (stems_nil _)
  | cons argument rest ih =>
    refine .bind (.handleLists (.beginArgument index) rfl fun _ _ => rfl) fun _ => ?_
    refine .bind (h argument List.mem_cons_self scope) fun value => ?_
    have others : Steadies o ([value] ++ []) [] (resolveFrom scope (index + 1) rest)
        argumentValues :=
      (ih (fun a ha => h a (List.mem_cons_of_mem _ ha)) (index + 1)).mono (stems_nil _)
    exact .bind others.holding fun values => .pure (.left _ _)

theorem upholds_resolveArguments {p : Arena (σ → σ) → Prop} (scope : ScopeId)
    {arguments : List (Argument (Deferred σ Value))}
    (h : ∀ argument ∈ arguments, Steadying o argument.value) :
    Upholds o p [] [] (resolveArguments arguments scope) argumentValues :=
  .bind (.handleLists .openArguments rfl fun _ _ => rfl) fun _ =>
    (steadies_resolveFrom scope arguments h 0).ensuring fun _ =>
      .handleLists .closeArguments rfl fun _ _ => rfl

theorem steadies_evaluateItems (scope : ScopeId) (items : List (Deferred σ Value))
    (h : ∀ item ∈ items, Steadying o item) :
    Steadies o [] [] (evaluateItems scope items) fun values => values := by
  induction items with
  | nil => exact .pure (stems_nil _)
  | cons item rest ih =>
    refine .bind (h item List.mem_cons_self scope) fun value => ?_
    have others : Steadies o ([value] ++ []) [] (evaluateItems scope rest) fun values => values :=
      (ih fun i hi => h i (List.mem_cons_of_mem _ hi)).mono (stems_nil _)
    exact .bind others.holding fun values => .pure (.left _ _)

/-- The scope of a call is there for the parameters to be bound in, and holds the arguments then. -/
theorem orderly_bindParameters {held : List Value} {w : World σ} {arguments : List (Argument Value)}
    (orderly : o.Orderly held (argumentValues arguments) w) {parent frame : ScopeId}
    {a : Arena (σ → σ)} (live : w.arena.isLive parent = true)
    (made : w.arena.allocate (blank .function (some parent)) = (frame, a))
    (parameters : List String) :
    ∃ w', (bindParameters frame parameters arguments).on held { w with arena := a } = (.ok (), w') ∧
      Fills frame a w'.arena ∧ o.Orderly held [] w' := by
  have there := orderly.wellFormed.scope?_of_allocate_eq made frame
  rw [if_pos rfl] at there
  obtain ⟨w', bound, filled, kept⟩ := on_forM_define (parameters.zip arguments) Prod.fst
    (fun binding => binding.2.value) held { w with arena := a } ((isLive_iff _ _).2 ⟨_, there⟩)
  have given : ∀ v ∈ (parameters.zip arguments).map fun binding => binding.2.value,
      v ∈ argumentValues arguments := by
    intro v mem
    obtain ⟨⟨parameter, argument⟩, there, rfl⟩ := List.mem_map.1 mem
    exact List.mem_map_of_mem (List.of_mem_zip there).2
  obtain ⟨times, tidy⟩ := orderly.tidy
  have entered := tidy.enter live made filled ((Covers.left _ _).trans (covers_of_subset given))
    fun native => orderly.plain (native.mono given)
  refine ⟨w', bound, filled.fills, kept.trans orderly.kept, by simp, times, entered.keep ?_⟩
  show Covers (argumentValues arguments ++ (held ++ w.kept) ++ w'.arena.heldValues)
    ([] ++ (held ++ w'.kept))
  rw [kept]
  grind

/-- The scope of a call is newer than all that was there when it all started, and is released in the
end. -/
theorem steadies_callFunction {run : Expr → Deferred σ Value}
    (hrun : ∀ body, Steadying o (run body)) (acting : ∀ body, Acting (run body))
    {function : Function} (plain : function.isNative = false) (arguments : List (Argument Value))
    (receiver : Option ScopeId) :
    Steadies o [] (argumentValues arguments)
      (engine.callFunction run function arguments receiver) fun v => [v] := by
  cases hbody : function.body with
  | native key =>
    simp only [Function.isNative, hbody] at plain
    cases plain
  | expression parameters body closure =>
    by_cases hlength : parameters.length = arguments.length
    · intro held w covered gentle _ orderly
      have wf := orderly.wellFormed
      by_cases live : w.arena.isLive ((receiver <|> closure).getD global) = true
      · cases made : w.arena.allocate
          (blank .function (some ((receiver <|> closure).getD global))) with
        | mk frame a =>
        cases ended : (activate run frame parameters body arguments).on held
          { w with arena := a } with
        | mk result w' =>
        obtain ⟨-, answered, -⟩ :=
          engine.on_callFunction acting hbody hlength rfl held w wf live made ended
        obtain ⟨w₁, bound, fills, entered⟩ := orderly_bindParameters orderly live made parameters
        rw [activate, on_bind, bound] at ended
        have after := hrun body frame held w₁ covered gentle trivial entered
        have activity := (acting body frame held w₁ entered.wellFormed trivial).1
        dsimp only at ended
        rw [ended] at after activity
        obtain ⟨s, here, function, created, -⟩ := wf.exists_newest_frame made fills activity
        obtain ⟨_, before⟩ := orderly.tidy
        have newer : o.custody.arena.clock < s.created :=
          created ▸ Nat.lt_succ_of_le before.clock_le
        obtain ⟨times, tidy⟩ := after.tidy
        rw [answered]
        exact ⟨after.kept, after.plain, times, tidy.release here function newer⟩
      · have stale : w.arena.scope? ((receiver <|> closure).getD global) = none := by
          simpa [isLive] using live
        rw [engine.on_callFunction_of_stale run hbody hlength rfl held stale]
        exact orderly.drop
    · simp only [callFunction, hbody, ne_eq, hlength, not_false_eq_true, if_true]
      exact .fail _

theorem stems_of_number (given : List Value) {v : Value} (number : v.number?.isSome = true) :
    Stems given [v] := by
  cases v with
  | int n => exact stems_of_bare given (by simp [Value.objects]) (by simp [Value.hasNative])
  | double x => exact stems_of_bare given (by simp [Value.objects]) (by simp [Value.hasNative])
  | _ => cases number

theorem isSome_number?_of_integerOf {value made : Value} (h : integerOf value = .ok made) :
    made.number?.isSome = true := by
  unfold integerOf at h
  split at h
  · cases h
    rfl
  · split at h
    · cases h
      rfl
    · cases h
  · cases h

theorem isSome_number?_of_doubleOf {type : String} {value made : Value}
    (h : doubleOf type value = .ok made) : made.number?.isSome = true := by
  unfold doubleOf at h
  split at h
  · cases h
    rfl
  · cases h

theorem steadies_conversion {pre : List Value} (type : String) (arguments : List (Argument Value))
    {convert : Value → Except EvalError Value}
    (number : ∀ value made, convert value = .ok made → made.number?.isSome = true) :
    Steadies o around pre
      (EvalM.ofExcept (singleArgument type arguments >>= convert) : EvalM σ Value) fun v => [v] := by
  refine .ofExcept fun made answered => ?_
  cases single : singleArgument type arguments with
  | error e =>
    rw [single] at answered
    cases answered
  | ok value =>
    rw [single] at answered
    exact stems_of_number _ (number value made answered)

/-- What a constructor makes is made of the arguments. -/
theorem steadies_construct (records : engine.OnlyRecords) {name : String}
    {construct : Constructor σ} (found : engine.registry.constructorOf name = .ok construct)
    (arguments : List (Argument Value)) :
    Steadies o around (argumentValues arguments) (EvalM.onHost (construct arguments))
      fun artifact => .artifact artifact :: argumentValues arguments := by
  refine .onHost fun host artifact answered => ?_
  have made := records.stems_construct found answered
  grind

theorem steadies_makeValue (records : engine.OnlyRecords) (type : RuntimeType Value)
    (arguments : List (Argument Value)) :
    Steadies o around (argumentValues arguments) (engine.makeValue type arguments)
      fun v => [v] := by
  unfold makeValue
  split
  · exact .fail _
  · exact steadies_conversion _ arguments fun _ _ => isSome_number?_of_integerOf
  · exact steadies_conversion _ arguments fun _ _ => isSome_number?_of_doubleOf
  · refine .bind_ofExcept fun construct found => ?_
    refine .bind (steadies_construct records found arguments) fun artifact => ?_
    have named : Stems (argumentValues arguments) (imageName? arguments).toList :=
      stems_of_subset fun _ mem => mem_argumentValues_of_imageName? (Option.mem_toList.1 mem)
    have given : Stems (.artifact artifact :: argumentValues arguments ++ around)
        (.artifact artifact :: (imageName? arguments).toList) := by grind
    have members : (("artifact", Value.artifact artifact) ::
        (imageName? arguments).toList.map fun v => ("name", v)).map Prod.snd =
          .artifact artifact :: (imageName? arguments).toList := by
      cases imageName? arguments <;> rfl
    let filling := ("artifact", Value.artifact artifact) ::
      (imageName? arguments).toList.map fun v => ("name", v)
    have filled : Steadies o around (filling.map Prod.snd)
        (EvalM.newObject filling : EvalM σ ScopeId) fun object => [.object object] :=
      upholds_newObject filling
    rw [members] at filled
    refine .bind (filled.conseq given fun _ => .left _ _) fun object => ?_
    exact .pure (.left _ _)
  · exact .fail _

/-- The type that is called is held while its arguments are resolved, and they are held while the
value is made. -/
theorem steadies_callType (records : engine.OnlyRecords) (type : RuntimeType Value)
    {arguments : List (Argument (Deferred σ Value))}
    (h : ∀ argument ∈ arguments, Steadying o argument.value) (scope : ScopeId) :
    Steadies o [] [.type type] (engine.callType type arguments scope) fun v => [v] := by
  have called : Steadies o ([.type type] ++ []) []
      (resolveArguments arguments scope >>= fun arguments =>
        EvalM.holding (argumentValues arguments) (engine.makeValue type arguments))
      fun v => [v] := by
    refine .bind ((upholds_resolveArguments scope h).mono (stems_nil _)) fun values => ?_
    have alone : Steadies o [] (argumentValues values) (engine.makeValue type values)
        fun v => [v] := steadies_makeValue records type values
    have made : Steadies o (argumentValues values ++ ([.type type] ++ [])) []
        (engine.makeValue type values) fun v => [v] := alone.within (by grind)
    exact made.holding.conseq (by grind) fun v => by grind
  exact called.holding.conseq (by grind) fun v => by grind

theorem steadies_applyModifiers (records : engine.OnlyRecords) (scope : ScopeId)
    (modifiers : List (Call (Deferred σ Value)))
    (h : ∀ modifier ∈ modifiers, ∀ argument ∈ modifier.arguments, Steadying o argument.value)
    (artifact : Artifact Value) :
    Steadies o [] [.artifact artifact] (engine.applyModifiers scope artifact modifiers)
      fun made => [.artifact made] := by
  induction modifiers generalizing artifact with
  | nil => exact .pure (.left _ _)
  | cons modifier rest ih =>
    have others := ih fun m hm => h m (List.mem_cons_of_mem _ hm)
    refine .bind_ofExcept fun decorate found => ?_
    have resolved : Steadies o ([.artifact artifact] ++ []) []
        (resolveArguments modifier.arguments scope) argumentValues :=
      (upholds_resolveArguments scope (h modifier List.mem_cons_self)).mono (stems_nil _)
    refine .bind resolved.holding fun values => ?_
    refine .bind (q := fun made => [.artifact made]) (.onHost fun host made answered => ?_) others
    have decorated := records.stems_decorate found answered
    grind

/-- In every scope, the arguments of all calls of the chain keep things in order. -/
def ChainSteadies (o : Outset σ) (chain : Chain (Deferred σ Value)) : Prop :=
  ∀ call ∈ chain.root :: chain.modifiers, ∀ argument ∈ call.arguments, Steadying o argument.value

theorem steadies_build (records : engine.OnlyRecords) {chain : Chain (Deferred σ Value)}
    (h : ChainSteadies o chain) (scope : ScopeId) :
    Steadies o [] [] (engine.build chain scope) fun made => [.artifact made] := by
  refine .bind_ofExcept fun construct found => ?_
  refine .bind (upholds_resolveArguments scope (h chain.root List.mem_cons_self)) fun values => ?_
  refine .bind (steadies_construct records found values) fun artifact => ?_
  have modified := steadies_applyModifiers records scope chain.modifiers
    (fun modifier hm => h modifier (List.mem_cons_of_mem _ hm)) artifact
  have within : Steadies o (argumentValues values ++ []) [.artifact artifact]
      (engine.applyModifiers scope artifact chain.modifiers) fun made => [.artifact made] :=
    modified.mono (stems_nil _)
  exact within.holding.conseq (by grind) fun made => by grind

/-- What an expression means keeps things in order: its value, and the arguments of the chain that
it is. -/
structure MeaningSteadies (o : Outset σ) (meaning : Meaning σ) : Prop where
  read : ∀ scope, Steadies o [] [] (meaning.read scope) fun found => [found.1]
  chain : ∀ chain, meaning.chain? = some chain → ChainSteadies o chain

theorem MeaningSteadies.value {meaning : Meaning σ} (h : MeaningSteadies o meaning) :
    Steadying o meaning.value := fun scope =>
  .bind (h.read scope) fun _ => .pure (.left _ _)

theorem steadies_readName (name : String) (scope : ScopeId) :
    Steadies o [] [] (readName name scope : EvalM σ (Value × Option Place))
      fun found => [found.1] := by
  refine .bind (upholds_resolve? scope name) fun owner => ?_
  split
  · refine .bind (upholds_findLocal? _ name) fun found => ?_
    split
    · exact .pure (by grind [Option.toList])
    · exact .fail _
  · exact .fail _

/-- A member that a value has by its kind is a part of it or is bare. -/
theorem stems_memberValue? {receiver value : Value} {name : String}
    (h : memberValue? receiver name = some value) : Stems [receiver] [value] := by
  refine ⟨covers_memberValue? h, ?_⟩
  simp only [someNative_cons, someNative_nil, or_false]
  unfold memberValue? at h
  split at h
  · exact Value.hasNative_of_member (Table.mem_values_of_find? h)
  · cases h
    simp [Value.hasNative]
  · cases h
    simp [Value.hasNative]
  · cases h
    simp [Value.hasNative]
  · cases h
    simp [Value.hasNative]
  · cases h

theorem stems_path (given : List Value) (names : List String) : Stems given [.path names] :=
  stems_of_bare given (by simp [Value.objects]) (by simp [Value.hasNative])

theorem steadies_readMemberOf (receiver : Value) (name : String) (whole : Expr) :
    Steadies o around [receiver] (readMemberOf receiver name whole : EvalM σ (Value × Option Place))
      fun found => [found.1] := by
  have byKind : Steadies o around [receiver] (readMemberByKind receiver name whole : EvalM σ _)
      fun found => [found.1] := by
    unfold readMemberByKind
    split
    · rename_i value found
      have part := stems_memberValue? found
      exact .pure (by grind)
    · split
      · exact .pure (stems_path _ _)
      · exact .fail _
  cases receiver with
  | object object =>
    refine .bind (upholds_findLocal? object name) fun found => ?_
    cases found with
    | some value => exact .pure (by grind [Option.toList])
    | none => exact byKind
  | path names => exact .pure (stems_path _ _)
  | _ => exact byKind

theorem steadies_readMember (base : Expr) {meaning : Meaning σ} (h : MeaningSteadies o meaning)
    (name : String) (scope : ScopeId) :
    Steadies o [] [] (readMember base meaning name scope) fun found => [found.1] := by
  have member : Steadies o [] [] (meaning.read scope >>= fun found =>
      readMemberOf found.1 name (.member base name)) fun found => [found.1] :=
    .bind (h.read scope) fun found => steadies_readMemberOf found.1 name _
  unfold readMember
  cases plainName? base with
  | none => exact member
  | some head =>
    refine .bind (upholds_resolve? scope head) fun owner => ?_
    cases owner with
    | none => exact .pure (stems_path _ _)
    | some owner => exact member

/-- A function that is in hand is no native one, and may be called. -/
theorem steadies_callResolved {run : Expr → Deferred σ Value}
    (hrun : ∀ body, Steadying o (run body)) (acting : ∀ body, Acting (run body))
    (function : Function) {arguments : List (Argument (Deferred σ Value))}
    (h : ∀ argument ∈ arguments, Steadying o argument.value) (receiver : Option ScopeId)
    (scope : ScopeId) :
    Steadies o [] [.function function]
      (engine.callResolved run function arguments receiver scope) fun v => [v] := by
  refine .gently fun native => ?_
  have plain : function.isNative = false := by simpa [Value.hasNative] using native
  have answered : Steadies o [] [] (engine.callResolved run function arguments receiver scope)
      fun v => [v] :=
    .bind (upholds_resolveArguments scope h) fun values =>
      steadies_callFunction hrun acting plain values receiver
  exact answered.conseq (stems_nil _) fun _ => .left _ _

theorem steadying_callName (records : engine.OnlyRecords) {run : Expr → Deferred σ Value}
    (hrun : ∀ body, Steadying o (run body)) (acting : ∀ body, Acting (run body)) (name : String)
    {arguments : List (Argument (Deferred σ Value))}
    (h : ∀ argument ∈ arguments, Steadying o argument.value) :
    Steadying o (engine.callName run name arguments) := by
  intro scope
  refine .bind (steadies_readName name scope) fun read => ?_
  split
  · rename_i function called
    rw [called]
    exact steadies_callResolved hrun acting function h none scope
  · rename_i type called
    rw [called]
    exact steadies_callType records type h scope
  · exact .fail _

theorem steadying_callValue {run : Expr → Deferred σ Value} (hrun : ∀ body, Steadying o (run body))
    (acting : ∀ body, Acting (run body)) (callee : Expr) {meaning : Meaning σ}
    (hmeaning : MeaningSteadies o meaning) {arguments : List (Argument (Deferred σ Value))}
    (h : ∀ argument ∈ arguments, Steadying o argument.value) :
    Steadying o (engine.callValue run callee meaning arguments) := by
  intro scope
  refine .bind (hmeaning.value scope) fun value => ?_
  split
  · rename_i function
    exact steadies_callResolved hrun acting function h none scope
  · exact .fail _

theorem stems_bool (given : List Value) (b : Bool) : Stems given [.bool b] :=
  stems_of_bare given (by simp [Value.objects]) (by simp [Value.hasNative])

theorem steadies_contains (call : MemberCall) :
    Steadies o around [] (Collection.contains call : EvalM σ Value) fun v => [v] := by
  unfold Collection.contains
  split
  · split
    · exact .pure (stems_bool _ _)
    · exact .pure (stems_bool _ _)
    · exact .fail _
    · exact .fail _
  · exact .fail _

/-- The items of an array in another order are no other items. -/
theorem upholds_shuffled {p : Arena (σ → σ) → Prop} (call : MemberCall) :
    Upholds o p around [call.receiver] (Collection.shuffled call : EvalM σ Value)
      fun v => [v] := by
  refine .bind (q := fun _ => [call.receiver]) ?_ fun _ => ?_
  · unfold MemberCall.expectNoArguments
    split
    · exact .pure (.left _ _)
    · exact .fail _
  refine .bind (q := fun items => [.array items]) ?_ fun items => ?_
  · unfold MemberCall.arrayReceiver
    cases call.receiver with
    | array items => exact .pure (.left _ _)
    | _ => exact .fail _
  refine .bind (q := fun items => [.array items]) ?_ fun shuffled => .pure (.left _ _)
  refine .idle (fun _ _ => ⟨rfl, rfl⟩) fun held w shuffled answered => ?_
  rw [on_shuffled] at answered
  cases answered
  have perm := w.random.shuffle_perm items
  have same : Covers [.array items] [.array (w.random.shuffle items).1] := by
    rintro id ⟨v, mem, handle⟩
    obtain rfl := List.mem_singleton.1 mem
    obtain ⟨item, among, inner⟩ := (mem_objects_array _ id).1 handle
    refine ⟨.array items, List.mem_singleton_self _, (mem_objects_array _ id).2 ?_⟩
    exact ⟨item, perm.mem_iff.1 among, inner⟩
  have plain : (Value.array (w.random.shuffle items).1).hasNative = false := by
    simp [Value.hasNative]
  grind

/-- A member function of collections replaces at most the array that it was called on. -/
theorem upholds_handler {name : String} {handler : MemberFunction σ}
    (known : (name, handler) ∈ Collection.handlers) (call : MemberCall) :
    Upholds o (fun a => call.arguments = [] → Located (call.receiver, call.place) a) around
      [call.receiver] (handler call) fun v => [v] := by
  simp only [Collection.handlers, List.mem_cons, Prod.mk.injEq, List.not_mem_nil, or_false] at known
  obtain ⟨-, rfl⟩ | ⟨-, rfl⟩ | ⟨-, rfl⟩ := known
  · have answered : Steadies o around [] (Collection.contains call : EvalM σ Value) fun v => [v] :=
      steadies_contains call
    exact (answered.conseq (stems_nil _) fun _ => .left _ _).weaken fun _ _ => trivial
  · refine .bind_acts (upholds_shuffled call) (acts_shuffled call) fun value => ?_
    refine .bind (q := fun _ => [value]) ?_ fun _ => .pure (.left _ _)
    exact (upholds_writeBack call value).weaken fun a h => ⟨h.2.1, h.2.2 h.1⟩
  · exact upholds_shuffled call

/-- Between the reading of the receiver and the call, arguments are resolved. Where there are none,
the receiver still reads as it did. -/
theorem upholds_callHandler (records : engine.OnlyRecords) (receiver : Value) (place : Option Place)
    (name : String) {arguments : List (Argument (Deferred σ Value))}
    (h : ∀ argument ∈ arguments, Steadying o argument.value)
    (acting : ∀ argument ∈ arguments, Acting argument.value) (scope : ScopeId) :
    Upholds o (Located (receiver, place)) [receiver] []
      (engine.callHandler receiver place name arguments scope) fun v => [v] := by
  refine .bind_ofExcept fun handler found => ?_
  obtain ⟨known, mem⟩ := records.members name handler (Registry.find?_of_memberOf found)
  have resolved : Upholds o (Located (receiver, place)) [receiver] []
      (resolveArguments arguments scope) argumentValues :=
    (upholds_resolveArguments scope h).mono (stems_nil _)
  refine .bind_acts resolved (acts_resolveArguments scope arguments acting) fun values => ?_
  have answered : Upholds o (fun a => values = [] → Located (receiver, place) a)
      (argumentValues values ++ [receiver]) [receiver] (handler ⟨name, receiver, place, values⟩)
      fun v => [v] := upholds_handler mem ⟨name, receiver, place, values⟩
  have inner : Stems ([] ++ (argumentValues values ++ [receiver])) [receiver] := .right _ _
  have within := answered.conseq inner fun v => .left [v] _
  exact within.holding.conseq (by grind) fun v => by grind

theorem stems_nestedType? {receiver : Value} {name : String} {type : RuntimeType Value}
    (h : nestedType? receiver name = some type) : Stems [receiver] [.type type] := by
  unfold nestedType? at h
  split at h
  · split at h
    · rename_i outer _ nested found
      cases h
      have part : memberValue? (.type outer) name = some (.type type) := found
      exact stems_memberValue? part
    · cases h
  · cases h

/-- What an object binds under a name is in hand. -/
theorem upholds_ownMember? {p : Arena (σ → σ) → Prop} (receiver : Value) (name : String) :
    Upholds o p around [] (ownMember? receiver name : EvalM σ (Option (ScopeId × Value)))
      fun found => found.toList.map Prod.snd := by
  unfold ownMember?
  split
  · refine .bind (upholds_findLocal? _ name) fun found => ?_
    cases found with
    | none => exact .pure (stems_nil _)
    | some value => exact .pure (by grind [Option.toList])
  · exact .pure (stems_nil _)

theorem steadying_callMember (records : engine.OnlyRecords) {run : Expr → Deferred σ Value}
    (hrun : ∀ body, Steadying o (run body)) (acting : ∀ body, Acting (run body)) {base : Meaning σ}
    (hbase : MeaningSteadies o base) (acts : MeaningActs base) (name : String)
    {arguments : List (Argument (Deferred σ Value))}
    (h : ∀ argument ∈ arguments, Steadying o argument.value)
    (hacting : ∀ argument ∈ arguments, Acting argument.value) :
    Steadying o (engine.callMember run base name arguments) := by
  intro scope
  refine .bind_acts (hbase.read scope) (acts.read scope) fun read => ?_
  obtain ⟨receiver, place⟩ := read
  dsimp only
  have called : ∀ {x : EvalM σ Value},
      Upholds o (Located (receiver, place)) ([receiver] ++ []) [] x (fun v => [v]) →
        Upholds o (Located (receiver, place)) [] [receiver] (EvalM.holding [receiver] x)
          fun v => [v] :=
    fun hx => hx.holding.conseq (by grind) fun v => by grind
  apply called
  split
  · rename_i nested found
    have part := stems_nestedType? found
    exact ((steadies_callType records nested h scope).within (by grind)).weaken fun _ _ => trivial
  · refine .bind_acts (upholds_ownMember? receiver name) (r := fun _ => Located (receiver, place))
      ?_ fun own => ?_
    · unfold ownMember?
      split
      · exact .idle (fun _ _ => rfl) fun _ _ _ h _ => h
      · exact .pure fun _ h => h
    · split
      · rename_i object function
        have answered : Steadies o [] [.function function]
            (engine.callResolved run function arguments (some object) scope) fun v => [v] :=
          steadies_callResolved hrun acting function h (some object) scope
        exact (answered.mono (stems_nil _)).weaken fun _ _ => trivial
      · exact .fail _
      · exact upholds_callHandler records receiver place name h hacting scope

theorem steadies_isView (chain : Chain (Deferred σ Value)) (scope : ScopeId) :
    Steadies o around [] (engine.isView chain scope) fun _ => [] :=
  .bind (upholds_resolve? scope _) fun _ => .pure (stems_nil _)

theorem meaningSteadies_callMeaning (records : engine.OnlyRecords)
    {chain? : Option (Chain (Deferred σ Value))}
    (hchain : ∀ chain, chain? = some chain → ChainSteadies o chain) {call : Deferred σ Value}
    (hcall : Steadying o call) : MeaningSteadies o (engine.callMeaning chain? call) where
  chain := hchain
  read scope := by
    have called : Steadies o [] [] (do return (← call scope, none) : EvalM σ (Value × Option Place))
        fun found => [found.1] := .bind (hcall scope) fun _ => .pure (.left _ _)
    unfold callMeaning
    dsimp only
    split
    · rename_i chain
      refine .bind (steadies_isView chain scope) fun view => ?_
      split
      · exact .bind (steadies_build records (hchain chain rfl) scope) fun _ => .pure (.left _ _)
      · exact called
    · exact called

theorem stems_ofLiteral (given : List Value) (l : Literal) : Stems given [Value.ofLiteral l] := by
  cases l with
  | _ =>
    exact stems_of_bare given (by simp [Value.ofLiteral, Value.objects])
      (by simp [Value.ofLiteral, Value.hasNative])

/-- What any expression means keeps things in order, if bodies of functions do. -/
theorem meaningSteadies_meaning (records : engine.OnlyRecords) {run : Expr → Deferred σ Value}
    (hrun : ∀ body, Steadying o (run body)) (acting : ∀ body, Acting (run body)) (e : Expr) :
    MeaningSteadies o (engine.meaning run e) := by
  have none_chain : ∀ {read : Deferred σ (Value × Option Place)},
      (∀ scope, Steadies o [] [] (read scope) fun found => [found.1]) →
        MeaningSteadies o ⟨read, none⟩ :=
    fun h => ⟨h, fun _ hc => by cases hc⟩
  have acts := engine.meaningActs_meaning records.members acting
  have argumentsAct : ∀ arguments : List (Argument Expr),
      ∀ argument ∈ engine.argumentMeanings run arguments, Acting argument.value := by
    intro arguments argument ha
    obtain ⟨written, -, same⟩ := exists_of_mem_argumentMeanings ha
    rw [same]
    exact (acts written.value).value
  have steady : ∀ arguments : List (Argument Expr),
      (∀ a ∈ arguments, MeaningSteadies o (engine.meaning run a.value)) →
        ∀ argument ∈ engine.argumentMeanings run arguments, Steadying o argument.value := by
    intro arguments h argument ha
    obtain ⟨written, hw, same⟩ := exists_of_mem_argumentMeanings ha
    rw [same]
    exact (h written hw).value
  induction e using Expr.meaning_induction with
  | literal l =>
    rw [meaning]
    exact none_chain fun _ => .pure (stems_ofLiteral _ l)
  | name n =>
    rw [meaning]
    exact none_chain (steadies_readName n)
  | implicitMember n =>
    rw [meaning]
    exact none_chain fun _ => .pure (stems_path _ _)
  | member base n ih =>
    rw [meaning]
    exact none_chain (steadies_readMember base ih n)
  | array items ih =>
    rw [meaning, itemMeanings_eq_map]
    have each : ∀ item ∈ items.map fun e => (engine.meaning run e).value, Steadying o item := by
      intro item hi
      obtain ⟨written, hw, rfl⟩ := List.mem_map.1 hi
      exact (ih written hw).value
    refine none_chain fun scope => .bind (steadies_evaluateItems scope _ each) fun values => ?_
    exact .pure ((Stems.left _ _).trans (stems_array values))
  | callName n arguments ih =>
    rw [meaning]
    refine meaningSteadies_callMeaning records ?_
      (steadying_callName records hrun acting n (steady arguments ih))
    intro chain hc call hcall
    cases hc
    obtain rfl := List.mem_singleton.1 hcall
    exact steady arguments ih
  | callMember base n arguments ihbase ih =>
    rw [meaning]
    refine meaningSteadies_callMeaning records ?_
      (steadying_callMember records hrun acting ihbase (acts base) n (steady arguments ih)
        (argumentsAct arguments))
    intro chain hc call hcall
    obtain ⟨inner, found, rfl⟩ := Option.map_eq_some_iff.1 hc
    obtain hcall | rfl := Chain.mem_push.1 hcall
    · exact ihbase.chain inner found call hcall
    · exact steady arguments ih
  | callImplicit n arguments =>
    rw [meaning]
    exact meaningSteadies_callMeaning records (fun _ hc => by cases hc) fun _ => .fail _
  | callValue callee arguments hname hmember himplicit ihcallee ih =>
    rw [meaning]
    · exact meaningSteadies_callMeaning records (fun _ hc => by cases hc)
        (steadying_callValue hrun acting callee ihcallee (steady arguments ih))
    · exact hname
    · exact hmember
    · exact himplicit

theorem steadying_run (records : engine.OnlyRecords) (depth : Nat) (body : Expr) :
    Steadying o (engine.run depth body) := by
  induction depth generalizing body with
  | zero => exact fun _ => .throw _
  | succ depth ih =>
    exact (meaningSteadies_meaning records ih (engine.acting_run records.members depth) body).value

theorem steadying_evaluate (records : engine.OnlyRecords) (e : Expr) :
    Steadying o (engine.evaluate e) :=
  (meaningSteadies_meaning records (steadying_run records engine.activations)
    (engine.acting_run records.members engine.activations) e).value

theorem steadies_render (records : engine.OnlyRecords) (e : Expr) (scope : ScopeId) :
    Steadies o [] [] (engine.render e scope) fun made => [.artifact made] := by
  unfold render
  split
  · rename_i chain _
    refine steadies_build records ?_ scope
    intro call hcall argument ha
    have mapped : call ∈ (chain.root :: chain.modifiers).map (Call.map engine.evaluate) := hcall
    obtain ⟨written, _, rfl⟩ := List.mem_map.1 mapped
    obtain ⟨part, _, rfl⟩ := List.mem_map.1 ha
    exact steadying_evaluate records part.value
  · exact .fail _

end Engine

end Fluent

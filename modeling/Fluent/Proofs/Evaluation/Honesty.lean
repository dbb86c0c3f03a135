import Fluent.Proofs.Evaluation.Tending

/-!
# Honest engines

Nobody can forge a handle: the code of a host hands out none but to what it is given and to what the
host holds itself. Then evaluations tend what they hold. The proof follows the meaning of
expressions.

Main statements: `tending_evaluate`, `tends_render`, `tends_resolve` and `tends_apply`.
-/
namespace Fluent

open Arena

namespace Registry

variable {σ : Type} {registry : Registry σ} {name : String}

theorem find?_of_constructorOf {construct : Constructor σ}
    (h : registry.constructorOf name = .ok construct) :
    registry.constructors.find? name = some construct := by
  unfold constructorOf at h
  split at h
  · cases h
    assumption
  · cases h

theorem find?_of_decoratorOf {decorate : Decorator σ}
    (h : registry.decoratorOf name = .ok decorate) :
    registry.decorators.find? name = some decorate := by
  unfold decoratorOf at h
  split at h
  · cases h
    assumption
  · cases h

theorem find?_of_memberOf {handler : MemberFunction σ} (h : registry.memberOf name = .ok handler) :
    registry.members.find? name = some handler := by
  unfold memberOf at h
  split at h
  · cases h
    assumption
  · cases h

end Registry

namespace Engine

open EvalM

variable {σ : Type}

/-- What the host's code answers holds no handle but to what the code was given and to what the host
holds itself. A member function tends what it holds. -/
structure Honest (engine : Engine σ) (own : List Value) : Prop where
  constructors : ∀ name construct, engine.registry.constructors.find? name = some construct →
    ∀ arguments host artifact, ((construct arguments).run.run host).1 = .ok artifact →
      Covers (argumentValues arguments ++ own) [.artifact artifact]
  decorators : ∀ name decorate, engine.registry.decorators.find? name = some decorate →
    ∀ arguments artifact host made, ((decorate arguments artifact).run.run host).1 = .ok made →
      Covers (.artifact artifact :: argumentValues arguments ++ own) [.artifact made]
  natives : ∀ function arguments host value,
    ((engine.native function arguments).run.run host).1 = .ok value →
      Covers (argumentValues arguments ++ own) [value]
  members : ∀ name handler, engine.registry.members.find? name = some handler → ∀ call,
    Tends (call.receiver :: argumentValues call.arguments ++ own) [] (handler call) fun v => [v]

/-- In every scope, the evaluation tends what it holds, and answers a value. -/
def Tending (own : List Value) (evaluation : Deferred σ Value) : Prop :=
  ∀ scope, Tends own [] (evaluation scope) fun v => [v]

variable {engine : Engine σ} {own : List Value}

/-- Arguments that have been resolved are held while the others are. -/
theorem tends_resolveFrom (scope : ScopeId) (arguments : List (Argument (Deferred σ Value)))
    (h : ∀ argument ∈ arguments, Tending own argument.value) (index : Nat) :
    Tends own [] (resolveFrom scope index arguments) argumentValues := by
  induction arguments generalizing index with
  | nil => exact .pure (covers_nil _)
  | cons argument rest ih =>
    refine .bind ((spares_beginArgument index).tends (covers_nil _)) fun _ => ?_
    refine .bind (h argument List.mem_cons_self scope) fun value => ?_
    have others : Tends ([value] ++ own) [] (resolveFrom scope (index + 1) rest) argumentValues :=
      (ih (fun a ha => h a (List.mem_cons_of_mem _ ha)) (index + 1)).mono (.right _ _)
    exact .bind others.holding fun values => .pure (.left _ _)

theorem tends_resolveArguments (scope : ScopeId) {arguments : List (Argument (Deferred σ Value))}
    (h : ∀ argument ∈ arguments, Tending own argument.value) :
    Tends own [] (resolveArguments arguments scope) argumentValues :=
  .bind (spares_openArguments.tends (covers_nil _)) fun _ =>
    (tends_resolveFrom scope arguments h 0).ensuring spares_closeArguments

theorem tends_evaluateItems (scope : ScopeId) (items : List (Deferred σ Value))
    (h : ∀ item ∈ items, Tending own item) :
    Tends own [] (evaluateItems scope items) fun values => values := by
  induction items with
  | nil => exact .pure (covers_nil _)
  | cons item rest ih =>
    refine .bind (h item List.mem_cons_self scope) fun value => ?_
    have others : Tends ([value] ++ own) [] (evaluateItems scope rest) fun values => values :=
      (ih fun i hi => h i (List.mem_cons_of_mem _ hi)).mono (.right _ _)
    exact .bind others.holding fun values => .pure (.left _ _)

/-- The scope of an activation holds the arguments until it is released. -/
theorem tends_callFunction (honest : engine.Honest own) {run : Expr → Deferred σ Value}
    (hrun : ∀ body, Tending own (run body)) (function : Function)
    (arguments : List (Argument Value)) (receiver : Option ScopeId) :
    Tends own (argumentValues arguments) (engine.callFunction run function arguments receiver)
      fun v => [v] := by
  unfold callFunction
  split
  · exact .onHost fun host value answered => honest.natives function arguments host value answered
  · rename_i parameters body closure _
    split
    · exact .fail _
    · refine .bind ((spares_pushFunction _).tends (covers_nil _)) fun frame => ?_
      refine .ensuring (.bind (q := fun _ => []) ?_ fun _ => hrun body frame)
        (spares_popFunction frame)
      have bound := spares_forM_define (σ := σ) frame (parameters.zip arguments) Prod.fst
        fun binding => binding.2.value
      have given : Covers (argumentValues arguments ++ own)
          ((parameters.zip arguments).map fun binding => binding.2.value) := by
        refine covers_of_subset fun v mem => List.mem_append_left _ ?_
        obtain ⟨⟨parameter, argument⟩, there, rfl⟩ := List.mem_map.1 mem
        exact List.mem_map_of_mem (List.of_mem_zip there).2
      exact (bound.tends given).conseq (.left _ _) fun _ => covers_nil _

theorem objects_integerOf {value made : Value} (h : integerOf value = .ok made) :
    made.objects = [] := by
  unfold integerOf at h
  split at h
  · cases h
    rfl
  · split at h
    · cases h
      rfl
    · cases h
  · cases h

theorem objects_doubleOf {type : String} {value made : Value} (h : doubleOf type value = .ok made) :
    made.objects = [] := by
  unfold doubleOf at h
  split at h
  · cases h
    rfl
  · cases h

/-- A conversion that answers numbers answers no handle. -/
theorem tends_conversion {around pre : List Value} (type : String)
    (arguments : List (Argument Value)) {convert : Value → Except EvalError Value}
    (bare : ∀ value made, convert value = .ok made → made.objects = []) :
    Tends around pre (EvalM.ofExcept (singleArgument type arguments >>= convert) : EvalM σ Value)
      fun v => [v] := by
  refine .ofExcept fun made answered => ?_
  cases single : singleArgument type arguments with
  | error e =>
    rw [single] at answered
    cases answered
  | ok value =>
    rw [single] at answered
    have none := bare value made answered
    grind

/-- The name of an image is one of the arguments. -/
theorem mem_argumentValues_of_imageName? {arguments : List (Argument Value)} {v : Value}
    (found : imageName? arguments = some v) : v ∈ argumentValues arguments := by
  cases labeled : Argument.labeled? arguments "systemName" with
  | some u =>
    rw [imageName?, labeled] at found
    obtain rfl : u = v := Option.some.inj found
    obtain ⟨argument, there, rfl⟩ := Option.map_eq_some_iff.1 labeled
    exact List.mem_map_of_mem (List.mem_of_find?_eq_some there)
  | none =>
    rw [imageName?, labeled] at found
    have first : Argument.positional? arguments 0 = some v := found
    obtain ⟨argument, there, rfl⟩ := Option.map_eq_some_iff.1 first
    have unlabeled := List.mem_of_getElem? there
    exact List.mem_map_of_mem (List.mem_filter.1 unlabeled).1

theorem covers_imageName? (arguments : List (Argument Value)) :
    Covers (argumentValues arguments) (imageName? arguments).toList :=
  covers_of_subset fun _ mem => mem_argumentValues_of_imageName? (Option.mem_toList.1 mem)

/-- What a constructor makes is made of the arguments. -/
theorem tends_construct (honest : engine.Honest own) {name : String} {construct : Constructor σ}
    (found : engine.registry.constructorOf name = .ok construct)
    (arguments : List (Argument Value)) :
    Tends own (argumentValues arguments) (EvalM.onHost (construct arguments)) fun artifact =>
      .artifact artifact :: argumentValues arguments := by
  refine .onHost fun host artifact answered => ?_
  have registered := Registry.find?_of_constructorOf found
  have made := honest.constructors name construct registered arguments host artifact answered
  grind

theorem tends_makeValue (honest : engine.Honest own) (type : RuntimeType Value)
    (arguments : List (Argument Value)) :
    Tends own (argumentValues arguments) (engine.makeValue type arguments) fun v => [v] := by
  unfold makeValue
  split
  · exact .fail _
  · exact tends_conversion _ arguments fun _ _ => objects_integerOf
  · exact tends_conversion _ arguments fun _ _ => objects_doubleOf
  · refine .bind_ofExcept fun construct found => ?_
    refine .bind (tends_construct honest found arguments) fun artifact => ?_
    have named := covers_imageName? arguments
    have members : (("artifact", Value.artifact artifact) ::
        (imageName? arguments).toList.map fun v => ("name", v)).map Prod.snd =
          .artifact artifact :: (imageName? arguments).toList := by
      cases imageName? arguments <;> rfl
    have filled := tends_newObject (σ := σ) own
      (("artifact", .artifact artifact) :: (imageName? arguments).toList.map fun v => ("name", v))
    rw [members] at filled
    refine .bind (filled.conseq (by grind) fun _ => .left _ _) fun object => ?_
    exact .pure (.left _ _)
  · exact .fail _

/-- The type that is called is held while its arguments are resolved, and they are held while the
value is made. -/
theorem tends_callType (honest : engine.Honest own) (type : RuntimeType Value)
    {arguments : List (Argument (Deferred σ Value))}
    (h : ∀ argument ∈ arguments, Tending own argument.value) (scope : ScopeId) :
    Tends own [.type type] (engine.callType type arguments scope) fun v => [v] := by
  have called : Tends ([.type type] ++ own) []
      (resolveArguments arguments scope >>= fun arguments =>
        EvalM.holding (argumentValues arguments) (engine.makeValue type arguments))
      fun v => [v] := by
    refine .bind ((tends_resolveArguments scope h).mono (.right _ _)) fun values => ?_
    have made : Tends (argumentValues values ++ ([.type type] ++ own)) []
        (engine.makeValue type values) fun v => [v] :=
      (tends_makeValue honest type values).within (by grind)
    exact made.holding.conseq (by grind) fun v => by grind
  exact called.holding.conseq (by grind) fun v => by grind

theorem tends_applyModifiers (honest : engine.Honest own) (scope : ScopeId)
    (modifiers : List (Call (Deferred σ Value)))
    (h : ∀ modifier ∈ modifiers, ∀ argument ∈ modifier.arguments, Tending own argument.value)
    (artifact : Artifact Value) :
    Tends own [.artifact artifact] (engine.applyModifiers scope artifact modifiers) fun made =>
      [.artifact made] := by
  induction modifiers generalizing artifact with
  | nil => exact .pure (.left _ _)
  | cons modifier rest ih =>
    have others := ih fun m hm => h m (List.mem_cons_of_mem _ hm)
    refine .bind_ofExcept fun decorate found => ?_
    have registered := Registry.find?_of_decoratorOf found
    have resolved : Tends ([.artifact artifact] ++ own) []
        (resolveArguments modifier.arguments scope) argumentValues :=
      (tends_resolveArguments scope (h modifier List.mem_cons_self)).mono (.right _ _)
    refine .bind resolved.holding fun values => ?_
    refine .bind (q := fun made => [.artifact made]) (.onHost fun host made answered => ?_) others
    have decorated := honest.decorators modifier.name decorate registered values artifact host made
      answered
    grind

/-- In every scope, the arguments of all calls of the chain tend what they hold. -/
def ChainTends (own : List Value) (chain : Chain (Deferred σ Value)) : Prop :=
  ∀ call ∈ chain.root :: chain.modifiers, ∀ argument ∈ call.arguments, Tending own argument.value

theorem tends_build (honest : engine.Honest own) {chain : Chain (Deferred σ Value)}
    (h : ChainTends own chain) (scope : ScopeId) :
    Tends own [] (engine.build chain scope) fun made => [.artifact made] := by
  refine .bind_ofExcept fun construct found => ?_
  refine .bind (tends_resolveArguments scope (h chain.root List.mem_cons_self)) fun values => ?_
  refine .bind (tends_construct honest found values) fun artifact => ?_
  have modified := tends_applyModifiers honest scope chain.modifiers
    (fun modifier hm => h modifier (List.mem_cons_of_mem _ hm)) artifact
  have within : Tends (argumentValues values ++ own) [.artifact artifact]
      (engine.applyModifiers scope artifact chain.modifiers) fun made => [.artifact made] :=
    modified.mono (.right _ _)
  exact within.holding.conseq (by grind) fun made => by grind

/-- What an expression means tends what it holds: its value, and the arguments of the chain that it
is. -/
structure MeaningTends (own : List Value) (meaning : Meaning σ) : Prop where
  read : ∀ scope, Tends own [] (meaning.read scope) fun found => [found.1]
  chain : ∀ chain, meaning.chain? = some chain → ChainTends own chain

theorem MeaningTends.value {meaning : Meaning σ} (h : MeaningTends own meaning) :
    Tending own meaning.value := fun scope =>
  .bind (h.read scope) fun _ => .pure (.left _ _)

theorem tends_readName (name : String) (scope : ScopeId) :
    Tends own [] (readName name scope : EvalM σ (Value × Option Place)) fun found => [found.1] := by
  refine .bind (tends_resolve? scope name) fun owner => ?_
  split
  · refine .bind (tends_findLocal? _ name) fun found => ?_
    split
    · exact .pure (by grind [Option.toList])
    · exact .fail _
  · exact .fail _

/-- A member that a value has by its kind is a part of it or holds no handle. -/
theorem covers_memberValue? {receiver value : Value} {name : String}
    (h : memberValue? receiver name = some value) : Covers [receiver] [value] := by
  unfold memberValue? at h
  split at h
  · rename_i type _
    have bound := Table.mem_values_of_find? h
    obtain ⟨entry, there, rfl⟩ := List.mem_map.1 bound
    intro id handle
    simp only [heldBy_cons, heldBy_nil, or_false] at handle ⊢
    obtain ⟨identity, typeName, ⟨entries⟩, builtIn⟩ := type
    simp only [Value.objects, Value.objectsOfEntries_eq_flatMap]
    exact List.mem_flatMap.2 ⟨entry, there, handle⟩
  · cases h
    grind [Value.objects]
  · cases h
    grind [Value.objects]
  · cases h
    grind [Value.objects]
  · cases h
    grind [Value.objects]
  · cases h

theorem tends_readMemberOf (receiver : Value) (name : String) (whole : Expr) :
    Tends own [receiver] (readMemberOf receiver name whole : EvalM σ (Value × Option Place))
      fun found => [found.1] := by
  have path : ∀ names place, Tends own [receiver]
      (pure (.path names, place) : EvalM σ (Value × Option Place)) fun found => [found.1] :=
    fun names place => .pure (by grind [Value.objects])
  have byKind : Tends own [receiver] (readMemberByKind receiver name whole : EvalM σ _)
      fun found => [found.1] := by
    unfold readMemberByKind
    split
    · rename_i value found
      have part := covers_memberValue? found
      exact .pure (by grind)
    · split
      · exact path _ _
      · exact .fail _
  cases receiver with
  | object object =>
    refine .bind (tends_findLocal? object name) fun found => ?_
    cases found with
    | some value => exact .pure (by grind [Option.toList])
    | none => exact byKind
  | path names => exact path _ _
  | _ => exact byKind

theorem tends_readMember (base : Expr) {meaning : Meaning σ} (h : MeaningTends own meaning)
    (name : String) (scope : ScopeId) :
    Tends own [] (readMember base meaning name scope) fun found => [found.1] := by
  have member : Tends own [] (meaning.read scope >>= fun found =>
      readMemberOf found.1 name (.member base name)) fun found => [found.1] :=
    .bind (h.read scope) fun found => tends_readMemberOf found.1 name _
  unfold readMember
  cases plainName? base with
  | none => exact member
  | some head =>
    refine .bind (tends_resolve? scope head) fun owner => ?_
    cases owner with
    | none => exact .pure (by grind [Value.objects])
    | some owner => exact member

theorem tending_callResolved (honest : engine.Honest own) {run : Expr → Deferred σ Value}
    (hrun : ∀ body, Tending own (run body)) (function : Function)
    {arguments : List (Argument (Deferred σ Value))}
    (h : ∀ argument ∈ arguments, Tending own argument.value) (receiver : Option ScopeId) :
    Tending own (engine.callResolved run function arguments receiver) := fun scope =>
  .bind (tends_resolveArguments scope h) fun values =>
    tends_callFunction honest hrun function values receiver

theorem tending_callName (honest : engine.Honest own) {run : Expr → Deferred σ Value}
    (hrun : ∀ body, Tending own (run body)) (name : String)
    {arguments : List (Argument (Deferred σ Value))}
    (h : ∀ argument ∈ arguments, Tending own argument.value) :
    Tending own (engine.callName run name arguments) := by
  intro scope
  refine .bind (tends_readName name scope) fun read => ?_
  split
  · exact (tending_callResolved honest hrun _ h none scope).conseq (covers_nil _) fun _ => .left _ _
  · rename_i type called
    rw [called]
    exact tends_callType honest type h scope
  · exact .fail _

theorem tending_callValue (honest : engine.Honest own) {run : Expr → Deferred σ Value}
    (hrun : ∀ body, Tending own (run body)) (callee : Expr) {meaning : Meaning σ}
    (hmeaning : MeaningTends own meaning) {arguments : List (Argument (Deferred σ Value))}
    (h : ∀ argument ∈ arguments, Tending own argument.value) :
    Tending own (engine.callValue run callee meaning arguments) := by
  intro scope
  refine .bind (hmeaning.value scope) fun value => ?_
  split
  · exact (tending_callResolved honest hrun _ h none scope).conseq (covers_nil _) fun _ => .left _ _
  · exact .fail _

/-- The receiver and the arguments are held around a member function. -/
theorem tends_callHandler (honest : engine.Honest own) (receiver : Value) (place : Option Place)
    (name : String) {arguments : List (Argument (Deferred σ Value))}
    (h : ∀ argument ∈ arguments, Tending own argument.value) (scope : ScopeId) :
    Tends ([receiver] ++ own) [] (engine.callHandler receiver place name arguments scope)
      fun v => [v] := by
  refine .bind_ofExcept fun handler found => ?_
  have registered := Registry.find?_of_memberOf found
  refine .bind ((tends_resolveArguments scope h).mono (.right _ _)) fun values => ?_
  have answered : Tends (argumentValues values ++ ([receiver] ++ own)) []
      (handler ⟨name, receiver, place, values⟩) fun v => [v] :=
    (honest.members name handler registered ⟨name, receiver, place, values⟩).mono (by grind)
  exact answered.holding.conseq (by grind) fun v => by grind

theorem covers_nestedType? {receiver : Value} {name : String} {type : RuntimeType Value}
    (h : nestedType? receiver name = some type) : Covers [receiver] [.type type] := by
  unfold nestedType? at h
  split at h
  · split at h
    · rename_i outer _ nested found
      cases h
      have part : memberValue? (.type outer) name = some (.type type) := found
      exact covers_memberValue? part
    · cases h
  · cases h

theorem tending_callMember (honest : engine.Honest own) {run : Expr → Deferred σ Value}
    (hrun : ∀ body, Tending own (run body)) {base : Meaning σ} (hbase : MeaningTends own base)
    (name : String) {arguments : List (Argument (Deferred σ Value))}
    (h : ∀ argument ∈ arguments, Tending own argument.value) :
    Tending own (engine.callMember run base name arguments) := by
  intro scope
  refine .bind (hbase.read scope) fun read => ?_
  obtain ⟨receiver, place⟩ := read
  dsimp only
  have outer : Covers ([receiver] ++ own) own := .right _ _
  have called : ∀ {x : EvalM σ Value}, Tends ([receiver] ++ own) [] x (fun v => [v]) →
      Tends own [receiver] (EvalM.holding [receiver] x) fun v => [v] :=
    fun hx => hx.holding.conseq (by grind) fun v => by grind
  apply called
  split
  · rename_i nested found
    have part := covers_nestedType? found
    exact (tends_callType honest nested h scope).within (by grind)
  · refine .bind (q := fun _ => []) ?_ fun own => ?_
    · unfold ownMember?
      split
      · refine .bind (tends_findLocal? _ name) fun _ => ?_
        exact .pure (covers_nil _)
      · exact .pure (covers_nil _)
    · split
      · exact (tending_callResolved honest hrun _ h _ scope).mono outer
      · exact .fail _
      · exact tends_callHandler honest receiver place name h scope

theorem tends_isView (chain : Chain (Deferred σ Value)) (scope : ScopeId) :
    Tends own [] (engine.isView chain scope) fun _ => [] :=
  .bind (tends_resolve? scope _) fun _ => .pure (covers_nil _)

theorem meaningTends_callMeaning (honest : engine.Honest own)
    {chain? : Option (Chain (Deferred σ Value))}
    (hchain : ∀ chain, chain? = some chain → ChainTends own chain) {call : Deferred σ Value}
    (hcall : Tending own call) : MeaningTends own (engine.callMeaning chain? call) where
  chain := hchain
  read scope := by
    have called : Tends own [] (do return (← call scope, none) : EvalM σ (Value × Option Place))
        fun found => [found.1] := .bind (hcall scope) fun _ => .pure (.left _ _)
    unfold callMeaning
    dsimp only
    split
    · rename_i chain
      refine .bind (tends_isView chain scope) fun view => ?_
      split
      · exact .bind (tends_build honest (hchain chain rfl) scope) fun _ => .pure (.left _ _)
      · exact called
    · exact called

/-- What any expression means tends what it holds, if bodies of functions do. -/
theorem meaningTends_meaning (honest : engine.Honest own) {run : Expr → Deferred σ Value}
    (hrun : ∀ body, Tending own (run body)) (e : Expr) :
    MeaningTends own (engine.meaning run e) := by
  have none_chain : ∀ {read : Deferred σ (Value × Option Place)},
      (∀ scope, Tends own [] (read scope) fun found => [found.1]) → MeaningTends own ⟨read, none⟩ :=
    fun h => ⟨h, fun _ hc => by cases hc⟩
  have tending_arguments : ∀ arguments : List (Argument Expr),
      (∀ a ∈ arguments, MeaningTends own (engine.meaning run a.value)) →
        ∀ argument ∈ engine.argumentMeanings run arguments, Tending own argument.value := by
    intro arguments h argument ha
    obtain ⟨written, hw, same⟩ := exists_of_mem_argumentMeanings ha
    rw [same]
    exact (h written hw).value
  induction e using Expr.meaning_induction with
  | literal l =>
    rw [meaning]
    have bare : (Value.ofLiteral l).objects = [] := by cases l <;> rfl
    exact none_chain fun _ => .pure (by grind)
  | name n =>
    rw [meaning]
    exact none_chain (tends_readName n)
  | implicitMember n =>
    rw [meaning]
    exact none_chain fun _ => .pure (by grind [Value.objects])
  | member base n ih =>
    rw [meaning]
    exact none_chain (tends_readMember base ih n)
  | array items ih =>
    rw [meaning, itemMeanings_eq_map]
    have tending : ∀ item ∈ items.map fun e => (engine.meaning run e).value, Tending own item := by
      intro item hi
      obtain ⟨written, hw, rfl⟩ := List.mem_map.1 hi
      exact (ih written hw).value
    refine none_chain fun scope => .bind (tends_evaluateItems scope _ tending) fun values => ?_
    exact .pure (by grind)
  | callName n arguments ih =>
    rw [meaning]
    have tending := tending_arguments arguments ih
    refine meaningTends_callMeaning honest ?_ (tending_callName honest hrun n tending)
    intro chain hc call hcall
    cases hc
    obtain rfl := List.mem_singleton.1 hcall
    exact tending
  | callMember base n arguments ihbase ih =>
    rw [meaning]
    have tending := tending_arguments arguments ih
    refine meaningTends_callMeaning honest ?_ (tending_callMember honest hrun ihbase n tending)
    intro chain hc call hcall
    obtain ⟨inner, found, rfl⟩ := Option.map_eq_some_iff.1 hc
    obtain hcall | rfl := Chain.mem_push.1 hcall
    · exact ihbase.chain inner found call hcall
    · exact tending
  | callImplicit n arguments =>
    rw [meaning]
    exact meaningTends_callMeaning honest (fun _ hc => by cases hc) fun _ => .fail _
  | callValue callee arguments hname hmember himplicit ihcallee ih =>
    rw [meaning]
    · exact meaningTends_callMeaning honest (fun _ hc => by cases hc)
        (tending_callValue honest hrun callee ihcallee (tending_arguments arguments ih))
    · exact hname
    · exact hmember
    · exact himplicit

theorem tending_run (honest : engine.Honest own) (depth : Nat) (body : Expr) :
    Tending own (engine.run depth body) := by
  induction depth generalizing body with
  | zero => exact fun _ => .throw _
  | succ depth ih => exact (meaningTends_meaning honest ih body).value

theorem tending_evaluate (honest : engine.Honest own) (e : Expr) :
    Tending own (engine.evaluate e) :=
  (meaningTends_meaning honest (tending_run honest engine.activations) e).value

theorem tends_resolve (honest : engine.Honest own) (arguments : List (Argument Expr))
    (scope : ScopeId) : Tends own [] (engine.resolve arguments scope) argumentValues := by
  refine tends_resolveArguments scope fun argument ha => ?_
  obtain ⟨written, _, rfl⟩ := List.mem_map.1 ha
  exact tending_evaluate honest written.value

theorem tends_render (honest : engine.Honest own) (e : Expr) (scope : ScopeId) :
    Tends own [] (engine.render e scope) fun made => [.artifact made] := by
  unfold render
  split
  · rename_i chain _
    refine tends_build honest ?_ scope
    intro call hcall argument ha
    have mapped : call ∈ (chain.root :: chain.modifiers).map (Call.map engine.evaluate) := hcall
    obtain ⟨written, _, rfl⟩ := List.mem_map.1 mapped
    obtain ⟨part, _, rfl⟩ := List.mem_map.1 ha
    exact tending_evaluate honest part.value
  · exact .fail _

theorem tends_apply (honest : engine.Honest own) (function : Function)
    (arguments : List (Argument Value)) (receiver : Option ScopeId) :
    Tends own (argumentValues arguments) (engine.apply function arguments receiver) fun v => [v] :=
  tends_callFunction honest (tending_run honest engine.activations) function arguments receiver

end Engine

end Fluent

import Fluent.Proofs.Arena.Assignment
import Fluent.Proofs.Evaluation.Honesty

/-!
# Shuffling where an array is bound

A path reads as what is bound in a scope, in an object, or in a type, and says which binding it was
read from. Reading it changes nothing, and the scope that it names is live, since a handle that is
read from an arena is to a live object. So a member function that is called on a path without
arguments may write to the binding that the path was read from, and what it writes goes there and
nowhere else.

It reads as what was written as long as generations do not come round. Main statements:
`Engine.shuffle_rewrites_binding`; and `Engine.shuffle_not_read_back`, that it need not afterwards.
-/
namespace Fluent

open EvalM Arena

variable {σ α : Type} {w : World σ}

/-! ### Reading paths -/

/-- The evaluation changes nothing in this world. What it answers is held in the arena, and if it
was read from a binding, that one is in a live scope and reads as it. -/
def Looks (w : World σ) (action : EvalM σ (Value × Option Place)) : Prop :=
  ∀ held, ∃ result, action.on held w = (result, w) ∧
    ∀ value place, result = .ok (value, place) → Covers w.arena.heldValues [value] ∧
      ∀ p, place = some p →
        w.arena.isLive p.scope = true ∧ w.arena.findLocal? p.scope p.name = some value

/-- Every object to which the arena holds a handle is live. -/
def Designates (w : World σ) : Prop :=
  ∀ id, HeldBy w.arena.heldValues id → w.arena.isLive id = true

namespace Looks

theorem fail (e : EvalError) : Looks w (EvalM.fail e) :=
  fun _ => ⟨_, rfl, fun _ _ answered => by cases answered⟩

theorem pure {value : Value} (covered : Covers w.arena.heldValues [value]) :
    Looks w (pure (value, none)) := by
  refine fun held => ⟨_, rfl, fun v place answered => ?_⟩
  cases answered
  exact ⟨covered, fun p none => by cases none⟩

/-- What a live scope binds is read from there. -/
theorem bound {id : ScopeId} {name : String} {value : Value} (live : w.arena.isLive id = true)
    (reads : w.arena.findLocal? id name = some value) :
    Looks w (Pure.pure (value, some ⟨id, name⟩)) := by
  refine fun held => ⟨_, rfl, fun v place answered => ?_⟩
  cases answered
  refine ⟨covers_findLocal? reads, fun p here => ?_⟩
  cases here
  exact ⟨live, reads⟩

theorem ask {x : EvalM σ α} {v : α} (asked : ∀ held, x.on held w = (.ok v, w))
    {f : α → EvalM σ (Value × Option Place)} (h : Looks w (f v)) : Looks w (x >>= f) := by
  intro held
  rw [on_bind, asked held]
  exact h held

/-- Looking further from what has been looked up. -/
theorem bind {x : EvalM σ (Value × Option Place)} (hx : Looks w x)
    {f : Value × Option Place → EvalM σ (Value × Option Place)}
    (hf : ∀ found, Covers w.arena.heldValues [found.1] → Looks w (f found)) :
    Looks w (x >>= f) := by
  intro held
  obtain ⟨result, ends, found⟩ := hx held
  rw [on_bind, ends]
  cases result with
  | error stop => exact ⟨_, rfl, fun _ _ answered => by cases answered⟩
  | ok read => exact hf read (found read.1 read.2 rfl).1 held

end Looks

namespace Engine

theorem looks_readName (name : String) (scope : ScopeId) : Looks w (readName name scope) := by
  refine .ask (fun held => on_resolve? scope name held w) ?_
  cases found : w.arena.resolve? scope name with
  | none => exact .fail _
  | some owner =>
    refine .ask (fun held => on_findLocal? owner name held w) ?_
    cases reads : w.arena.findLocal? owner name with
    | none => exact .fail _
    | some value => exact .bound (nearest_of_resolveWithin? found).isLive reads

theorem looks_readMemberOf (live : Designates w) {receiver : Value}
    (covered : Covers w.arena.heldValues [receiver]) (name : String) (whole : Expr) :
    Looks w (readMemberOf receiver name whole) := by
  have path : ∀ names, Covers w.arena.heldValues [Value.path names] := by
    grind [Value.objects]
  have byKind : Looks w (readMemberByKind receiver name whole) := by
    unfold readMemberByKind
    cases member : memberValue? receiver name with
    | some value => exact .pure (covered.trans (covers_memberValue? member))
    | none =>
      cases whole.path? with
      | some names => exact .pure (path names)
      | none => exact .fail _
  cases receiver with
  | object object =>
    refine .ask (fun held => on_findLocal? object name held w) ?_
    cases reads : w.arena.findLocal? object name with
    | none => exact byKind
    | some value =>
      have handle : HeldBy w.arena.heldValues object := covered object (by simp [Value.objects])
      exact .bound (live object handle) reads
  | path names => exact .pure (path _)
  | _ => exact byKind

theorem looks_readMember (live : Designates w) (base : Expr) {meaning : Meaning σ} {scope : ScopeId}
    (h : Looks w (meaning.read scope)) (name : String) :
    Looks w (readMember base meaning name scope) := by
  have member : Looks w (meaning.read scope >>= fun found =>
      readMemberOf found.1 name (.member base name)) :=
    h.bind fun found covered => looks_readMemberOf live covered name _
  unfold readMember
  cases plainName? base with
  | none => exact member
  | some head =>
    refine .ask (fun held => on_resolve? scope head held w) ?_
    cases w.arena.resolve? scope head with
    | none => exact .pure (by grind [Value.objects])
    | some owner => exact member

/-- By induction on the path: reading it only looks. -/
theorem looks_of_path (live : Designates w) (engine : Engine σ) (run : Expr → Deferred σ Value)
    {b : Expr} {names : List String} (path : b.path? = some names) (scope : ScopeId) :
    Looks w ((engine.meaning run b).read scope) := by
  induction b using Expr.meaning_induction generalizing names with
  | name n => simpa only [meaning] using looks_readName n scope
  | member base n ih =>
    obtain ⟨shorter, path, -⟩ := Option.map_eq_some_iff.1 path
    simpa only [meaning] using looks_readMember live base (ih path) n
  | _ => cases path

theorem chain?_of_path (engine : Engine σ) (run : Expr → Deferred σ Value) {b : Expr}
    {names : List String} (path : b.path? = some names) :
    (engine.meaning run b).chain? = none := by
  cases b with
  | name n => simp only [meaning]
  | member base n => simp only [meaning]
  | _ => cases path

/-! ### Calls on paths -/

/-- A member function that is called without arguments on the array that a path reads as is given
that array and the binding it was read from, in the world as it was. -/
theorem on_call_of_path (engine : Engine σ) (run : Expr → Deferred σ Value) {b : Expr}
    {names : List String} (path : b.path? = some names) {scope : ScopeId} {held : List Value}
    {items : List Value} {place : Option Place}
    (reads : ((engine.meaning run b).read scope).on held w = (.ok (.array items, place), w))
    {name : String} {handler : MemberFunction σ}
    (known : engine.registry.members.find? name = some handler) :
    ((engine.meaning run (.call (.member b name) [])).value scope).on held w =
      (handler ⟨name, .array items, place, []⟩).on (.array items :: held) w := by
  have lookup : engine.registry.memberOf name = .ok handler := by
    simp only [Registry.memberOf, known]
  have value : (engine.meaning run (.call (.member b name) [])).value scope =
      engine.callMember run (engine.meaning run b) name [] scope := by
    simp only [Meaning.value, meaning, argumentMeanings, callMeaning,
      chain?_of_path engine run path, Option.map_none, bind_assoc, pure_bind, bind_pure]
  rw [value, callMember, on_bind, reads]
  simp only [nestedType?, ownMember?, callHandler, lookup, EvalM.ofExcept, resolveArguments_nil,
    argumentValues, List.map_nil, pure_bind, on_holding]
  rfl

end Engine

namespace Collection

/-- Without arguments, the items of an array are answered in a drawn order. -/
theorem on_shuffled {call : MemberCall} (empty : call.arguments = []) {items : List Value}
    (array : call.receiver = .array items) (held : List Value) (w : World σ) :
    (shuffled call).on held w =
      (.ok (.array (w.random.shuffle items).1),
        { w with random := (w.random.shuffle items).2 }) := by
  obtain ⟨name, receiver, place, arguments⟩ := call
  cases empty
  cases array
  rfl

/-- The drawn order replaces the binding that the array was read from, and the observers of an
object that it belongs to are called. -/
theorem on_shuffle {call : MemberCall} (empty : call.arguments = []) {items : List Value}
    (array : call.receiver = .array items) {place : Place} (from_ : call.place = some place)
    {w : World σ} {s : Scope (σ → σ)} (live : w.arena.scope? place.scope = some s)
    (bound : (w.arena.findLocal? place.scope place.name).isSome = true) (held : List Value) :
    (shuffle call).on held w =
      (.ok (.array (w.random.shuffle items).1),
        notified { w with
            arena := w.arena.written place.scope s place.name (.array (w.random.shuffle items).1)
            random := (w.random.shuffle items).2 }
          (if s.kind = .object then s.observers else [])) := by
  have lands : ∀ value, (assign place.scope place.name value).on w.arena =
      (.ok (if s.kind = .object then s.observers else []),
        w.arena.written place.scope s place.name value) := by
    intro value
    simp only [on_assign, resolve?_of_isSome live bound, on_define, live]
  rw [shuffle, on_bind, on_shuffled empty array]
  simp only [on_bind, MemberCall.writeBack, from_, on_notifying, lands, on_pure]

/-- On anything else it fails, and nothing but the random source has been touched. -/
theorem on_shuffle_of_misused {call : MemberCall}
    (misused : call.arguments ≠ [] ∨ call.receiver.items? = none ∨ call.place = none)
    (held : List Value) (w : World σ) :
    ∃ why random, (shuffle call).on held w =
      (.error (.failed (.invalidArguments why)), { w with random := random }) := by
  obtain ⟨name, receiver, place, arguments⟩ := call
  cases arguments with
  | cons argument rest => exact ⟨_, w.random, rfl⟩
  | nil =>
    cases items : receiver.items? with
    | none =>
      refine ⟨.notArray name receiver.typeName, w.random, ?_⟩
      simp only [shuffle, shuffled, MemberCall.expectNoArguments, MemberCall.arrayReceiver, items]
      rfl
    | some xs =>
      obtain absurd | absurd | transient := misused
      · exact absurd.elim rfl
      · rw [items] at absurd
        cases absurd
      · cases transient
        refine ⟨.transient name receiver.typeName, (w.random.shuffle xs).2, ?_⟩
        simp only [shuffle, shuffled, MemberCall.expectNoArguments, MemberCall.arrayReceiver, items]
        rfl

end Collection

namespace Engine

/-- A name or a path that reads as an array from a binding may be shuffled, whichever lists are
open. The answer has the same items. The binding reads as the answer from then on, unless lists are
open and the handle of its scope has been given out again since they were opened. No other binding
reads differently, and if it belongs to an object, the observers of that are called once each.
Asking for the shuffled items instead answers the same and draws as much, and changes nothing else.
With arguments, on what is no array, and on what was not read from a binding, shuffling is refused
and changes neither a binding nor the host. -/
theorem shuffle_rewrites_binding (engine : Engine σ) (run : Expr → Deferred σ Value)
    (shuffles : engine.registry.members.find? "shuffle" = some Collection.shuffle)
    (answers : engine.registry.members.find? "shuffled" = some Collection.shuffled) :
    (∀ held w made, (⟨w.arena, held ++ w.kept, made⟩ : Custody (σ → σ)).Reached →
      ∀ b names, b.path? = some names → ∀ scope xs owner name,
        (((engine.meaning run b).read scope).on held w).1 = .ok (.array xs, some ⟨owner, name⟩) →
        let r := (w.random.shuffle xs).1
        r.Perm xs ∧
        (∃ s w', w.arena.scope? owner = some s ∧
          ((engine.meaning run (.call (.member b "shuffle") [])).value scope).on held w =
            (.ok (.array r), w') ∧
          w.arena.Rebinds w'.arena ⟨owner, name⟩ (.array r) ∧
          w'.host.state = (if s.kind = .object then s.observers else []).foldl
            (fun state observer => observer state) w.host.state ∧
          w'.host.identity = w.host.identity ∧ w'.kept = w.kept ∧
          w'.random = (w.random.shuffle xs).2) ∧
        ((engine.meaning run (.call (.member b "shuffled") [])).value scope).on held w =
          (.ok (.array r), { w with random := (w.random.shuffle xs).2 })) ∧
    ∀ call : MemberCall,
      call.arguments ≠ [] ∨ call.receiver.items? = none ∨ call.place = none →
        ∀ held (w : World σ), ∃ why random, (Collection.shuffle call).on held w =
          (.error (.failed (.invalidArguments why)), { w with random := random }) := by
  refine ⟨fun held w made reached b names path scope xs owner name read => ?_,
    fun call misused held w => Collection.on_shuffle_of_misused misused held w⟩
  have live : Designates w := by
    intro id handle
    obtain ⟨s, there, -⟩ := reached.sound.designates id ((heldBy_append _ _ id).2 (.inr handle))
    exact (isLive_iff _ _).2 ⟨s, there⟩
  obtain ⟨result, reads, found⟩ := looks_of_path live engine run path scope held
  rw [reads] at read
  obtain rfl : result = .ok (.array xs, some ⟨owner, name⟩) := read
  obtain ⟨-, located⟩ := found _ _ rfl
  obtain ⟨there, bound⟩ := located ⟨owner, name⟩ rfl
  obtain ⟨s, here⟩ := (w.arena.isLive_iff owner).1 there
  have shuffled := on_call_of_path engine run path reads answers
  rw [Collection.on_shuffled rfl rfl] at shuffled
  have rewritten := on_call_of_path engine run path reads shuffles
  rw [Collection.on_shuffle rfl rfl rfl here (by rw [bound]; rfl)] at rewritten
  exact ⟨w.random.shuffle_perm xs,
    ⟨s, _, here, rewritten, rebinds_written here name _, rfl, rfl, rfl, rfl⟩, shuffled⟩

/-- An object with an array and an observer that counts. An activation has begun, and in it a list
of arguments. -/
def countedMember : List (Operation (Nat → Nat)) :=
  [.define ⟨1, 0⟩ "items" (.array [.int 1, .int 2, .int 3]), .observe ⟨1, 0⟩ (· + 1),
    .define global "tray" (.object ⟨1, 0⟩), .pushFunction global, .openArguments, .beginArgument 0]

/-- `tray.items.shuffle()`, as an argument that is resolved in the activation. -/
theorem shuffle_rewrites_member :
    let engine : Engine Nat :=
      { registry := .withCollections .reject, native := fun _ _ => throw (.unknownIdentifier "") }
    let w : World Nat :=
      { arena := Operation.afterAll (.newObject [] none :: countedMember) (.ofGlobals .strict [])
        random := .linear 0
        host := { state := 0 } }
    let call : Expr := .call (.member (.member (.name "tray") "items") "shuffle") []
    ∃ r w', (engine.evaluate call ⟨2, 0⟩).on [.object ⟨1, 0⟩] w = (.ok (.array r), w') ∧
      r.Perm [.int 1, .int 2, .int 3] ∧
      w'.arena.findLocal? ⟨1, 0⟩ "items" = some (.array r) ∧ w'.host.state = 1 := by
  intro engine w call
  have draws : ∀ op ∈ countedMember, op.Draws [.object ⟨1, 0⟩] := by
    simp only [countedMember, List.forall_mem_cons, Operation.Draws]
    grind [Value.objects]
  have reached : (⟨w.arena, [.object ⟨1, 0⟩] ++ w.kept, _⟩ : Custody (Nat → Nat)).Reached :=
    ⟨.strict, [], by simp, .head (.newObject none rfl) (Custody.steps_afterAll countedMember draws)⟩
  obtain ⟨path, -⟩ := shuffle_rewrites_binding engine (engine.run engine.activations) rfl rfl
  obtain ⟨perm, ⟨s, w', live, answered, rebinds, state, -⟩, -⟩ :=
    path [.object ⟨1, 0⟩] w _ reached (.member (.name "tray") "items") _ rfl ⟨2, 0⟩
      [.int 1, .int 2, .int 3] ⟨1, 0⟩ "items" rfl
  have counts : (w.arena.scope? ⟨1, 0⟩).map (fun s => (s.kind, s.observers)) =
      some (.object, [(· + 1)]) := rfl
  rw [live] at counts
  obtain ⟨object, observers⟩ := Prod.mk.inj (Option.some.inj counts)
  have once : w.arena.GivenOnce ⟨1, 0⟩ := ⟨_, _, .ofGlobals .strict [], rfl, rfl, by decide +kernel⟩
  refine ⟨_, w', answered, perm, rebinds.self once, ?_⟩
  rw [state, if_pos object, observers]
  rfl

/-- Nothing that holds a handle is bound until generations have come round. -/
theorem reached_comeRound :
    (⟨Operation.comeRound, [], fun _ => 0⟩ : Custody (Unit → Unit)).Reached := by
  have leaving : ∀ op ∈ Operation.leaving, op.Draws [] := by
    simp only [Operation.leaving, List.forall_mem_cons, Operation.Draws]
    grind [Value.objects]
  have turns : ∀ n, ∀ op ∈ (Operation.turns 1 1 n : List (Operation (Unit → Unit))),
      op.Draws [] := by
    intro n
    induction n with
    | zero => simp [Operation.turns]
    | succ n ih => simpa [Operation.turns, or_imp, forall_and, Operation.Draws] using ih
  have draws : ∀ op ∈ Operation.comingRound, op.Draws [] := by
    rw [Operation.comingRound, List.forall_mem_append, List.forall_mem_append]
    exact ⟨leaving, turns _, by simp [Operation.Draws]⟩
  have steps := Custody.steps_afterAll (c := Custody.start .strict []) Operation.comingRound draws
  rw [Custody.start, Operation.afterAll_comingRound] at steps
  exact ⟨.strict, [], by simp, steps⟩

/-- In a scope whose handle an older one had, an array that was the older one's is shuffled, and
reads as before. -/
theorem shuffle_not_read_back :
    let engine : Engine Unit :=
      { registry := .withCollections .reject, native := fun _ _ => throw (.unknownIdentifier "") }
    let w : World Unit :=
      { arena := Operation.comeRound, random := .linear 0, host := { state := () } }
    let shuffled := (engine.evaluate (.call (.member (.name "xs") "shuffle") []) ⟨1, 0⟩).on [] w
    (⟨w.arena, [] ++ w.kept, fun _ => 0⟩ : Custody (Unit → Unit)).Reached ∧
      (((engine.meaning (engine.run engine.activations) (.name "xs")).read ⟨1, 0⟩).on [] w).1 =
        .ok (.array [.bool true, .bool false], some ⟨⟨1, 0⟩, "xs"⟩) ∧
      shuffled.1 = .ok (.array [.bool false, .bool true]) ∧
      shuffled.2.arena.findLocal? ⟨1, 0⟩ "xs" = some (.array [.bool true, .bool false]) := by
  exact ⟨reached_comeRound, rfl, rfl, rfl⟩

end Engine

end Fluent

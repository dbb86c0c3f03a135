import Fluent.Proofs.Arena.Generations
import Fluent.Proofs.Evaluation.TrackedMeanings

/-!
# Arguments of one list do not interfere

The arguments of a list are resolved one after the other. When one of them is reached, the arena reads
as it did before the list, so the argument is resolved as if it stood alone.

A stale handle must not come to mean a new scope meanwhile. Main statements:
`arguments_independent`; and `not_arguments_independent`, that a stale handle may come to do so once
generations come round.
-/
namespace Fluent.Engine

open Arena EvalM

variable {σ : Type}

section

variable {a₀ : Arena (σ → σ)} {more : Nat} {scope : ScopeId}

/-- The first argument is resolved, and then the others. -/
theorem exists_of_resolveFrom_cons {index : Nat} {argument : Argument (Deferred σ Value)}
    {rest : List (Argument (Deferred σ Value))} {held : List Value} {w w' : World σ}
    {values : List (Argument Value)}
    (h : (resolveFrom scope index (argument :: rest)).on held w = (.ok values, w')) :
    ∃ v w₁ later,
      (argument.value scope).on held { w with arena := w.arena.beginArgument index } =
        (.ok v, w₁) ∧
      (resolveFrom scope (index + 1) rest).on (v :: held) w₁ = (.ok later, w') ∧
      values = ⟨argument.label, v⟩ :: later := by
  rw [resolveFrom] at h
  obtain ⟨_, _, begun, h⟩ := exists_of_on_bind h
  cases begun
  obtain ⟨v, w₁, first, h⟩ := exists_of_on_bind h
  obtain ⟨later, _, others, h⟩ := exists_of_on_bind h
  cases h
  exact ⟨v, w₁, later, first, others, rfl⟩

/-- The arguments before are resolved, and then the others. -/
theorem exists_of_resolveFrom_append {index : Nat}
    {before rest : List (Argument (Deferred σ Value))} {held : List Value} {w w' : World σ}
    {values : List (Argument Value)}
    (h : (resolveFrom scope index (before ++ rest)).on held w = (.ok values, w')) :
    ∃ earlier reached held' later,
      (resolveFrom scope index before).on held w = (.ok earlier, reached) ∧
      (resolveFrom scope (index + before.length) rest).on held' reached = (.ok later, w') ∧
      earlier.length = before.length ∧ values = earlier ++ later := by
  induction before generalizing index held w values with
  | nil => exact ⟨[], w, held, values, rfl, h, rfl, rfl⟩
  | cons argument before ih =>
    obtain ⟨v, w₁, others, first, ended, rfl⟩ := exists_of_resolveFrom_cons h
    obtain ⟨earlier, reached, held', later, resolved, onward, length, rfl⟩ := ih ended
    refine ⟨⟨argument.label, v⟩ :: earlier, reached, held', later, ?_, ?_, by simp [length], rfl⟩
    · rw [resolveFrom, on_bind, on_modify]
      simp only [on_bind, on_holding, on_pure, List.cons_append, List.nil_append, first, resolved]
    · rw [List.length_cons, Nat.add_comm before.length, ← Nat.add_assoc]
      exact onward

theorem onward_resolveFrom {arguments : List (Argument (Deferred σ Value))}
    (acting : ∀ argument ∈ arguments, Acting argument.value) {index : Nat} {held : List Value}
    {w w' : World σ} (wf : w.arena.WellFormed) {result : Except Stop (List (Argument Value))}
    (h : (resolveFrom scope index arguments).on held w = (result, w')) :
    Onward w.arena w'.arena := by
  have activity := (acts_resolveFrom scope arguments acting index held w wf trivial).1
  rw [h] at activity
  exact activity.onward wf

/-- When the arguments before have been resolved, the next one reads what there was to read before
the list. -/
theorem steady_resolveFrom {before : List (Argument (Deferred σ Value))}
    (acting : ∀ argument ∈ before, Acting argument.value) {index : Nat} {held : List Value}
    {w w' : World σ} {values : List (Argument Value)}
    (h : (resolveFrom scope index before).on held w = (.ok values, w'))
    (calm : a₀.Calm more w'.arena) (steady : a₀.Steady more 0 (w.arena.beginArgument index))
    (unwritten : a₀.Unwritten more (w.arena.beginArgument index)) :
    a₀.Steady more 0 (w'.arena.beginArgument (index + before.length)) ∧
      a₀.Unwritten more (w'.arena.beginArgument (index + before.length)) := by
  induction before generalizing index held w values with
  | nil =>
    cases h
    exact ⟨steady, unwritten⟩
  | cons argument before ih =>
    obtain ⟨v, w₁, later, first, ended, _⟩ := exists_of_resolveFrom_cons h
    have wf := steady.grown.wellFormed
    have past := steady.grown.changes.clock_le
    have activity := (acting argument (by simp) scope held
      { w with arena := w.arena.beginArgument index } wf trivial).1
    rw [first] at activity
    have reached := activity.onward wf
    have onward := onward_resolveFrom (fun a ha => acting a (by simp [ha])) reached.wellFormed ended
    have calm₁ := calm.of_onward onward (Nat.le_trans past reached.clock_le)
    have next := steady.next_after (activity.without_objects wf past calm₁.objects) calm₁.clock_le
    rw [List.length_cons, Nat.add_comm before.length, ← Nat.add_assoc]
    exact ih (fun a ha => acting a (by simp [ha])) ended next.1 next.2

/-- What is resolved before an argument leaves it in a world that it cannot tell from the one in
which it stands alone. -/
theorem parallel_of_resolveFrom {w reached w₂ : World σ} (wf : w.arena.WellFormed)
    (mentions : ∀ id, w.arena.Mentions id → w.arena.Lasting more id)
    {before : List (Argument (Deferred σ Value))}
    (acting : ∀ argument ∈ before, Acting argument.value) {held : List Value}
    {earlier : List (Argument Value)}
    (first : (resolveFrom scope 0 before).on held { w with arena := w.arena.openArguments } =
      (.ok earlier, reached)) (calm : w.arena.Calm more reached.arena)
    (random : w₂.random = reached.random) (identity : w₂.host.identity = reached.host.identity) :
    Parallel w.arena more (reached.arena.clock - w.arena.clock) [] 0
      { reached with arena := reached.arena.beginArgument (0 + before.length) }
      { w₂ with arena := w.arena.openArguments.beginArgument 0 } := by
  have alone : w.arena.Steady more 0 (w.arena.openArguments.beginArgument 0) ∧
      w.arena.Unwritten more (w.arena.openArguments.beginArgument 0) := by
    refine (steady_openArguments wf mentions).next fun list outer hj => ?_
    cases hj
    intro _ _ _ _ found
    cases found
  have after := steady_resolveFrom acting first calm alone.1 alone.2
  refine ⟨after.1.twins alone.1 after.2 alone.2 ?_ ?_, random.symm, identity.symm⟩
  · exact fun id s p here hp => mentions p (.parent here hp)
  · have past := (onward_resolveFrom acting wf.openArguments first).clock_le
    rw [clock_beginArgument, clock_beginArgument]
    exact (Nat.add_sub_cancel' past).symm

/-- The list of one argument. -/
theorem on_resolveArguments_singleton {argument : Argument (Deferred σ Value)} {held : List Value}
    {w w₁ : World σ} {v : Value}
    (h : (argument.value scope).on held
      { w with arena := w.arena.openArguments.beginArgument 0 } = (.ok v, w₁)) :
    ((resolveArguments [argument] scope).on held w).1 = .ok [⟨argument.label, v⟩] := by
  rw [on_resolveArguments, resolveFrom, on_bind, on_modify]
  simp only [on_bind, h, on_holding, resolveFrom, on_pure]

/-- If the value of an argument tracks itself, it is the value that the argument has alone. -/
theorem resolveArguments_independent {w w' : World σ} (wf : w.arena.WellFormed)
    (mentions : ∀ id, id = scope ∨ w.arena.Mentions id → w.arena.Lasting more id)
    {before after : List (Argument (Deferred σ Value))} {argument : Argument (Deferred σ Value)}
    (acting : ∀ a ∈ before ++ argument :: after, Acting a.value)
    (tracking : ∀ offset, Tracking w.arena more offset (CleanValue w.arena more) argument.value)
    {held : List Value} {values : List (Argument Value)}
    (resolved : (resolveArguments (before ++ argument :: after) scope).on held w = (.ok values, w'))
    (calm : w.arena.Calm more w'.arena) :
    ∃ earlier reached v later,
      (resolveFrom scope 0 before).on held { w with arena := w.arena.openArguments } =
        (.ok earlier, reached) ∧
      earlier.length = before.length ∧ values = earlier ++ ⟨argument.label, v⟩ :: later ∧
      ∀ held₂ w₂, w₂.arena = w.arena → w₂.random = reached.random →
        w₂.host.identity = reached.host.identity →
        ((resolveArguments [argument] scope).on held₂ w₂).1 = .ok [⟨argument.label, v⟩] := by
  have acting_before : ∀ a ∈ before, Acting a.value := fun a ha => acting a (by simp [ha])
  have acting_after : ∀ a ∈ after, Acting a.value := fun a ha => acting a (by simp [ha])
  rw [on_resolveArguments] at resolved
  cases ran : (resolveFrom scope 0 (before ++ argument :: after)).on held
      { w with arena := w.arena.openArguments } with
  | mk result w₃ =>
  rw [ran] at resolved
  cases resolved
  obtain ⟨earlier, reached, held', rest, first, second, length, rfl⟩ :=
    exists_of_resolveFrom_append ran
  obtain ⟨v, w₁, later, third, fourth, rfl⟩ := exists_of_resolveFrom_cons second
  refine ⟨earlier, reached, v, later, first, length, rfl, ?_⟩
  intro held₂ w₂ arena random identity
  -- nothing that comes later undoes the making of an object
  have onward := onward_resolveFrom acting_before wf.openArguments first
  have begun := onward_beginArgument onward.wellFormed (0 + before.length)
  have activity := (acting argument (by simp) scope held'
    { reached with arena := reached.arena.beginArgument (0 + before.length) } begun.wellFormed
    trivial).1
  rw [third] at activity
  have resolving := begun.trans (activity.onward begun.wellFormed)
  have rest := onward_resolveFrom acting_after resolving.wellFormed fourth
  have past := onward.clock_le
  have calm₃ : w.arena.Calm more w₃.arena := ⟨calm.objects, calm.clock_le⟩
  have calm₁ := calm₃.of_onward rest (Nat.le_trans past resolving.clock_le)
  have parallel := parallel_of_resolveFrom wf (fun id h => mentions id (.inr h)) acting_before first
    (calm₁.of_onward resolving past) random identity
  obtain ⟨v', w₁', alone, ⟨rfl, _⟩, _⟩ := (tracking _ [] 0 scope scope).follows
    (.inr ⟨rfl, mentions scope (.inl rfl)⟩) held' held₂ _ _ parallel v w₁ third calm₁
  exact on_resolveArguments_singleton (by rwa [arena])

end

theorem not_hasObjectSince {a : Arena (σ → σ)} (h : ∀ i < a.slots.size, a.hasObject i = false)
    (since : Nat) : ¬ a.HasObjectSince since := by
  intro has
  obtain ⟨i, hi, object⟩ := has.exists_slot
  rw [h i hi] at object
  cases object

/-- A host without code of its own is pure. -/
theorem hostIsPure_withCollections (P : Value → Prop) (policy : DuplicatePolicy) (e : EvalError)
    (activations : Nat) :
    HostIsPure { registry := .withCollections policy, native := fun _ _ => throw e,
                 activations := activations : Engine σ } P where
  native _ _ _ _ same := ⟨rfl, same⟩
  native_yields _ _ _ _ _ _ h := by cases h
  construct _ _ h := by cases h
  construct_yields _ _ h := by cases h
  decorate _ _ h := by cases h
  decorate_yields _ _ h := by cases h

/-- A call without arguments of what the name is bound to. -/
def plainCall (name : String) : Argument Expr :=
  ⟨none, .call (.name name) []⟩

/-- A host without code of its own. -/
def bare : Engine Unit where
  registry := .withCollections .reject
  native _ _ := throw (.unknownIdentifier "")
  activations := 2

/-- A function has been defined in an activation that has ended, and so many others have ended since
that the last of all generations comes next in its slot. Of two more functions, one calls that
one. -/
def leftFunction : World Unit where
  arena :=
    { slots :=
        #[{ scope := some
              { kind := .global
                parent := none
                bindings := .ofList
                  [("f", .function ⟨0, "f", .expression [] (.literal (.boolean true)) none⟩),
                   ("h", .function ⟨1, "h", .expression [] (.call (.name "g") []) none⟩),
                   ("g", .function
                      ⟨2, "g", .expression [] (.literal (.boolean true)) (some ⟨1, 0⟩)⟩)] } },
          ⟨4294967295, none⟩]
      free := [1]
      policy := .strict
      clock := 2 ^ 32 - 1 }
  random := .linear 0
  host := ⟨(), 3⟩

theorem reachable_leftFunction : leftFunction.arena.Reachable := by
  have reached : Operation.afterAll
      ([.pushFunction global,
        .define global "g" (.function
          ⟨2, "g", .expression [] (.literal (.boolean true)) (some ⟨1, 0⟩)⟩),
        .popFunction ⟨1, 0⟩] ++ Operation.turns 1 1 (2 ^ 32 - 2))
      (ofGlobals .strict
        [("f", .function ⟨0, "f", .expression [] (.literal (.boolean true)) none⟩),
         ("h", .function ⟨1, "h", .expression [] (.call (.name "g") []) none⟩)]) =
      leftFunction.arena := by
    rw [Operation.afterAll_append, Operation.afterAll_turns rfl rfl rfl]
    rfl
  exact reached ▸ Operation.reachable_afterAll _ (.ofGlobals _ _)

end Fluent.Engine

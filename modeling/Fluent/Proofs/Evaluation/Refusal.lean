import Fluent.Proofs.Arena.Assignment
import Fluent.Proofs.Evaluation.Outcome

/-!
# Operations that fail

An operation on an arena fails if it is told to work on a scope that is gone, if the scope is not of
the kind that it is for, or if it assigns to a name that nobody has bound and the policy is strict.
Nothing else makes one fail, and one that fails does nothing: it is refused before its first change,
although a write consists of several, and although making an object reclaims others first.

Main statements: `Operation.ended`, what an operation comes to; and
`Operation.refusals_change_nothing`, which says it of the world, observers included.
-/
namespace Fluent

namespace Arena

variable {ο : Type}

theorem Nearest.isLive_start {a : Arena ο} {name : String} {id owner : ScopeId}
    (h : a.Nearest name id owner) : a.isLive id = true := by
  cases h with
  | here live bound => exact live
  | outward live unbound next further => exact (a.isLive_iff _).2 ⟨_, live⟩

/-- The search finds nothing exactly if the name reads as unbound all the way outward. -/
theorem WellFormed.resolve?_eq_none_iff {a : Arena ο} (h : a.WellFormed) {name : String}
    {id : ScopeId} :
    a.resolve? id name = none ↔ ∀ outer, a.Inside id outer → a.findLocal? outer name = none := by
  constructor
  · intro missing outer inside
    by_contra bound
    obtain ⟨owner, nearest⟩ := inside.exists_nearest (Option.isSome_iff_ne_none.2 bound)
    rw [h.resolve?_eq_some_iff.2 nearest] at missing
    cases missing
  · intro unbound
    by_contra found
    obtain ⟨owner, found⟩ := Option.ne_none_iff_exists'.1 found
    have nearest := h.resolve?_eq_some_iff.1 found
    have bound := nearest.isSome
    rw [unbound owner nearest.inside] at bound
    cases bound

end Arena

namespace Operation

open Arena ArenaM

variable {ο : Type}

/-- The scope that the operation is told to work on. -/
def target? : Operation ο → Option ScopeId
  | define scope _ _ | assign scope _ _ | observe scope _ | pushFunction scope
  | popFunction scope => some scope
  | newObject _ parent => parent
  | _ => none

/-- What is against the operation although the scope that it is told to work on is live. -/
def Barred (a : Arena ο) (s : Scope ο) : Operation ο → Prop
  | assign scope name _ =>
    a.policy = .strict ∧ ∀ outer, a.Inside scope outer → a.findLocal? outer name = none
  | observe _ _ => s.kind ≠ .object
  | popFunction _ => s.kind ≠ .function
  | _ => False

/-- The scope that the operation is told to work on is gone, or something is against it. -/
def Refused (a : Arena ο) (op : Operation ο) : Prop :=
  ∃ id, op.target? = some id ∧ ∀ s, a.scope? id = some s → op.Barred a s

/-- What an operation may come to: it succeeds, or it is refused and leaves the arena as it is. -/
inductive Ended (a : Arena ο) (op : Operation ο) : Except EvalError (List ο) × Arena ο → Prop where
  | done {observers : List ο} {b : Arena ο} (accepted : ¬ op.Refused a) : Ended a op (.ok observers, b)
  | refused {e : EvalError} (refused : op.Refused a) : Ended a op (.error e, a)

variable {a : Arena ο} {op : Operation ο} {id : ScopeId}

theorem refused_of_stale (target : op.target? = some id) (stale : a.scope? id = none) :
    op.Refused a := by
  refine ⟨id, target, fun s live => ?_⟩
  rw [stale] at live
  cases live

theorem refused_iff_of_live {s : Scope ο} (target : op.target? = some id)
    (live : a.scope? id = some s) : op.Refused a ↔ op.Barred a s := by
  constructor
  · rintro ⟨other, same, barred⟩
    rw [target] at same
    cases same
    exact barred s live
  · intro barred
    refine ⟨id, target, fun t there => ?_⟩
    rw [live] at there
    cases there
    exact barred

theorem not_refused_of_target?_eq_none (free : op.target? = none) : ¬ op.Refused a := by
  rintro ⟨id, target, -⟩
  rw [free] at target
  cases target

theorem ended_define (op : Operation ο) (target : op.target? = some id) (name : String)
    (value : Value) (free : ∀ s, ¬ op.Barred a s) :
    Ended a op ((Arena.define id name value).on a) := by
  rw [on_define]
  cases live : a.scope? id with
  | none => exact .refused (refused_of_stale target live)
  | some s => exact .done (by rw [refused_iff_of_live target live]; exact free s)

/-- The search stands before the first change: it finds a live scope or none. -/
theorem ended_assign (wf : a.WellFormed) (scope : ScopeId) (name : String) (value : Value) :
    Ended a (.assign scope name value) ((Arena.assign scope name value).on a) := by
  rw [on_assign]
  cases found : a.resolve? scope name with
  | some owner =>
    have nearest := wf.resolve?_eq_some_iff.1 found
    obtain ⟨s, here⟩ := (a.isLive_iff scope).1 nearest.isLive_start
    obtain ⟨t, there⟩ := (a.isLive_iff owner).1 nearest.isLive
    simp only [on_define, there]
    refine .done ?_
    rw [refused_iff_of_live rfl here]
    rintro ⟨-, unbound⟩
    have bound := nearest.isSome
    rw [unbound owner nearest.inside] at bound
    cases bound
  | none =>
    cases policy : a.policy with
    | strict => exact .refused ⟨scope, rfl, fun s _ => ⟨policy, wf.resolve?_eq_none_iff.1 found⟩⟩
    | defineLocal =>
      refine ended_define (.assign scope name value) rfl name value fun s barred => ?_
      rw [barred.1] at policy
      cases policy

/-- Every operation succeeds, or it is refused and leaves the arena as it is. -/
theorem ended (wf : a.WellFormed) (op : Operation ο) : Ended a op (op.perform.on a) := by
  cases op with
  | define scope name value => exact ended_define _ rfl name value fun _ barred => barred
  | assign scope name value => exact ended_assign wf scope name value
  | observe scope observer =>
    simp only [perform, on_bind, on_observe]
    cases live : a.scope? scope with
    | none => exact .refused (refused_of_stale rfl live)
    | some s =>
      have barred : (observe scope observer).Refused a ↔ (observe scope observer).Barred a s :=
        refused_iff_of_live rfl live
      by_cases object : s.kind = .object
      · simp only [object, if_true]
        exact .done (by simp [barred, Barred, object])
      · simp only [object, if_false]
        exact .refused (by simp [barred, Barred, object])
  | pushFunction parent =>
    simp only [perform, on_bind, on_pushFunction]
    cases live : a.scope? parent with
    | none => exact .refused (refused_of_stale rfl live)
    | some s => exact .done fun refused => (refused_iff_of_live rfl live).1 refused
  | popFunction scope =>
    simp only [perform, on_bind, on_popFunction]
    cases live : a.scope? scope with
    | none => exact .refused (refused_of_stale rfl live)
    | some s =>
      have barred : (popFunction scope : Operation ο).Refused a ↔ (popFunction scope).Barred a s :=
        refused_iff_of_live rfl live
      by_cases function : s.kind = .function
      · simp only [function, if_true]
        exact .done (by simp [barred, Barred, function])
      · simp only [function, if_false]
        exact .refused (by simp [barred, Barred, function])
  | newObject held parent =>
    simp only [perform, on_bind, on_newObject]
    cases parent with
    | none => exact .done (not_refused_of_target?_eq_none rfl)
    | some parent =>
      cases live : a.scope? parent with
      | none =>
        simp only [Option.filter, isLive, live, Option.isSome_none, Bool.not_false, if_true]
        exact .refused (refused_of_stale rfl live)
      | some s =>
        simp only [Option.filter, isLive, live, Option.isSome_some, Bool.not_true,
          Bool.false_eq_true, if_false]
        exact .done fun refused => (refused_iff_of_live rfl live).1 refused
  | _ => exact .done (not_refused_of_target?_eq_none rfl)

/-- A write, and whatever else is done to an arena, calls observers only after it has succeeded. -/
theorem on_notifying_of_refused {σ : Type} {w : World σ} (wf : w.arena.WellFormed)
    {op : Operation (σ → σ)} (refused : op.Refused w.arena) (held : List Value) :
    ∃ stop, (EvalM.notifying op.perform).on held w = (.error stop, w) := by
  have ends := ended wf op
  rw [EvalM.on_notifying]
  generalize op.perform.on w.arena = outcome at ends ⊢
  cases ends with
  | done accepted => exact absurd refused accepted
  | @refused e _ => exact ⟨.failed e, rfl⟩

theorem on_notifying_of_not_refused {σ : Type} {w : World σ} (wf : w.arena.WellFormed)
    {op : Operation (σ → σ)} (accepted : ¬ op.Refused w.arena) (held : List Value) :
    ∃ w', (EvalM.notifying op.perform).on held w = (.ok (), w') := by
  have ends := ended wf op
  rw [EvalM.on_notifying]
  generalize op.perform.on w.arena = outcome at ends ⊢
  cases ends with
  | done _ => exact ⟨_, rfl⟩
  | refused refused => exact absurd refused accepted

/-- An operation that fails leaves the world as it is: every slot with its scope, the free list and
the open argument lists, and the host's state, so no observer has been called. It fails if it is told
to work on a scope that is gone. If the scope is live, it fails exactly if it would end another scope
than that of an activation, attach an observer to another scope than that of an object, or assign to
a name that reads as unbound all the way outward while the policy is strict; every other operation
succeeds, which definitions, new activations and new objects in live scopes do, and whatever is not
told to work on a scope. -/
theorem refusals_change_nothing {σ : Type} (w : World σ) (reachable : w.arena.Reachable)
    (op : Operation (σ → σ)) (held : List Value) :
    let outcome := (EvalM.notifying op.perform).on held w
    (∀ stop w', outcome = (.error stop, w') → w' = w) ∧
    (∀ id, op.target? = some id → w.arena.isLive id = false → ∃ stop, outcome = (.error stop, w)) ∧
    (∀ id s, op.target? = some id → w.arena.scope? id = some s →
      (op.Barred w.arena s → ∃ stop, outcome = (.error stop, w)) ∧
      (¬ op.Barred w.arena s → ∃ w', outcome = (.ok (), w'))) ∧
    (op.target? = none → ∃ w', outcome = (.ok (), w')) := by
  intro outcome
  have wf := reachable.wellFormed
  refine ⟨fun stop w' failed => ?_, fun id target stale => ?_, fun id s target live => ?_,
    fun free => on_notifying_of_not_refused wf (not_refused_of_target?_eq_none free) held⟩
  · by_cases refused : op.Refused w.arena
    · obtain ⟨other, same⟩ := on_notifying_of_refused wf refused held
      exact (congrArg Prod.snd (failed.symm.trans same))
    · obtain ⟨after, done⟩ := on_notifying_of_not_refused wf refused held
      cases failed.symm.trans done
  · exact on_notifying_of_refused wf (refused_of_stale target (by simpa [isLive] using stale)) held
  · rw [← refused_iff_of_live target live]
    exact ⟨fun refused => on_notifying_of_refused wf refused held,
      fun accepted => on_notifying_of_not_refused wf accepted held⟩

/-- An object with an observer, an activation inside it that has ended, and a list of which the first
argument has bound a name in the object and the second one is being resolved. -/
def watchedObject : List (Operation (Nat → Nat)) :=
  [.newObject [] none, .observe ⟨1, 0⟩ Nat.succ, .pushFunction ⟨1, 0⟩, .popFunction ⟨2, 0⟩,
    .openArguments, .beginArgument 0, .define ⟨1, 0⟩ "x" (.bool true), .beginArgument 1]

/-- The name that the first argument has bound in the object cannot be assigned to, nothing can be
bound in the activation that has ended, and the object is no activation to end; but the name can be
bound again in the object. -/
theorem refusals_change_nothing_in_list :
    let w : World Nat :=
      { arena := afterAll watchedObject (.ofGlobals .strict []), random := .linear 0,
        host := { state := 0 } }
    let outcome := fun op : Operation (Nat → Nat) => (EvalM.notifying op.perform).on [] w
    (∃ stop, outcome (.assign ⟨1, 0⟩ "x" (.bool false)) = (.error stop, w)) ∧
      (∃ stop, outcome (.define ⟨2, 0⟩ "y" (.bool false)) = (.error stop, w)) ∧
      (∃ stop, outcome (.popFunction ⟨1, 0⟩) = (.error stop, w)) ∧
      ∃ w', outcome (.define ⟨1, 0⟩ "x" (.bool false)) = (.ok (), w') := by
  intro w outcome
  have reachable : w.arena.Reachable := reachable_afterAll _ (.ofGlobals _ _)
  have kind : (w.arena.scope? ⟨1, 0⟩).map (·.kind) = some .object := by decide +kernel
  obtain ⟨s, live, object⟩ := Option.map_eq_some_iff.1 kind
  have unbound : ∀ outer, w.arena.Inside ⟨1, 0⟩ outer → w.arena.findLocal? outer "x" = none :=
    reachable.wellFormed.resolve?_eq_none_iff.1 (by decide +kernel)
  refine ⟨?_, ?_, ?_, ?_⟩
  · obtain ⟨-, -, here, -⟩ :=
      refusals_change_nothing w reachable (.assign ⟨1, 0⟩ "x" (.bool false)) []
    exact (here _ s rfl live).1 ⟨rfl, unbound⟩
  · obtain ⟨-, stale, -⟩ :=
      refusals_change_nothing w reachable (.define ⟨2, 0⟩ "y" (.bool false)) []
    exact stale _ rfl (by decide +kernel)
  · obtain ⟨-, -, here, -⟩ := refusals_change_nothing w reachable (.popFunction ⟨1, 0⟩) []
    exact (here _ s rfl live).1 (by simp [Barred, object])
  · obtain ⟨-, -, here, -⟩ :=
      refusals_change_nothing w reachable (.define ⟨1, 0⟩ "x" (.bool false)) []
    exact (here _ s rfl live).2 id

end Operation

end Fluent

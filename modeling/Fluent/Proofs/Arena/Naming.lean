import Fluent.Proofs.Arena.Custody

/-!
# No name is bound twice

A scope binds every name once, whatever is done to its arena, so that what is among its bindings is
what one of its names stands for.

Main statements: `Table.mem_values_iff`, the values of a table are those that it finds;
`Reachable.named`, no scope of a reachable arena binds a name twice.
-/
namespace Fluent

namespace Table

variable {κ α : Type} [DecidableEq κ]

theorem nodup_keys_ofList (entries : List (κ × α)) : (ofList entries).keys.Nodup := by
  have grow : ∀ (rest : List (κ × α)) (t : Table κ α), t.keys.Nodup →
      (rest.foldl (fun t entry => t.insert entry.1 entry.2) t).keys.Nodup := by
    intro rest
    induction rest with
    | nil => exact fun t nodup => nodup
    | cons entry rest ih => exact fun t nodup => ih _ (t.nodup_keys_insert entry.1 entry.2 nodup)
  exact grow entries {} List.nodup_nil

/-- Where no key is bound twice, the values are those that keys stand for. -/
theorem mem_values_iff {t : Table κ α} (nodup : t.keys.Nodup) {v : α} :
    v ∈ t.values ↔ ∃ key, t.find? key = some v := by
  constructor
  · intro mem
    obtain ⟨entries⟩ := t
    simp only [keys, values, find?] at nodup mem ⊢
    induction entries with
    | nil => cases mem
    | cons entry rest ih =>
      obtain ⟨k, a⟩ := entry
      rw [List.map_cons, List.nodup_cons] at nodup
      rw [List.map_cons, List.mem_cons] at mem
      obtain rfl | mem := mem
      · exact ⟨k, by simp [lookup]⟩
      · obtain ⟨key, found⟩ := ih nodup.2 mem
        refine ⟨key, ?_⟩
        have other : k ≠ key := by
          rintro rfl
          obtain ⟨entry, there, rfl⟩ := List.mem_map.1 mem
          have bound : (⟨rest⟩ : Table κ α).contains k = true := by
            simp only [contains, find?, found, Option.isSome_some]
          exact nodup.1 ((contains_iff _ _).1 bound)
        simp only [lookup, other, if_false, found]
  · rintro ⟨key, found⟩
    exact mem_values_of_find? found

end Table

namespace Arena

variable {ο : Type}

/-- No scope binds a name twice. -/
def Named (a : Arena ο) : Prop :=
  ∀ id s, a.scope? id = some s → s.bindings.keys.Nodup

theorem named_ofGlobals (policy : AssignmentPolicy) (bindings : List (String × Value)) :
    (ofGlobals policy bindings : Arena ο).Named := by
  intro id s live
  rw [scope?_eq_some_iff] at live
  have mem := Array.mem_of_getElem? live
  simp only [ofGlobals, List.mem_toArray, List.mem_singleton, Slot.mk.injEq,
    Option.some.injEq] at mem
  rw [mem.2]
  exact Table.nodup_keys_ofList bindings

/-- A write binds its name in the place of an old binding, and what else changes binds nothing. -/
theorem Change.named {a b : Arena ο} (h : Change a b) (wf : a.WellFormed) (named : a.Named) :
    b.Named := by
  intro id t there
  cases h with
  | write live name value =>
    rw [scope?_written live] at there
    split at there
    · cases there
      exact Table.nodup_keys_insert _ _ _ (named _ _ live)
    · exact named id t there
  | turnover h =>
    obtain ⟨s, here, same⟩ | ⟨-, empty⟩ := h.inherits wf there
    · rw [same]
      exact named id s here
    · rw [empty]
      exact List.nodup_nil
  | openArguments => exact named id t there
  | beginArgument index => exact named id t (by simpa using there)
  | closeArguments => exact named id t there

theorem Changes.named {a b : Arena ο} (h : Changes a b) (wf : a.WellFormed) (named : a.Named) :
    b.Named := by
  induction h with
  | refl => exact named
  | tail before step ih => exact step.named (Changes.wellFormed before wf) ih

theorem Reachable.named {a : Arena ο} (h : a.Reachable) : a.Named := by
  induction h with
  | ofGlobals policy bindings => exact named_ofGlobals policy bindings
  | after reached op ih => exact (op.changes _).named reached.wellFormed ih

/-- What is held is held under a name of a scope, or was before an open list's first write. -/
theorem Named.exists_of_heldBy {a : Arena ο} (named : a.Named) (quiet : a.journal = [])
    {id : ScopeId} (held : HeldBy a.heldValues id) :
    ∃ scope s name v, a.scope? scope = some s ∧ s.bindings.find? name = some v ∧
      id ∈ v.objects := by
  obtain ⟨v, mem, handle⟩ := held
  obtain ⟨scope, s, live, bound⟩ | ⟨frame, opened, -⟩ := mem_heldValues.1 mem
  · obtain ⟨name, found⟩ := (Table.mem_values_iff (named scope s live)).1 bound
    exact ⟨scope, s, name, v, live, found, handle⟩
  · rw [quiet] at opened
    cases opened

end Arena

namespace Custody

variable {ο : Type}

open Arena

theorem Step.reachable {c d : Custody ο} (step : Step c d) (h : c.arena.Reachable) :
    d.arena.Reachable := by
  cases step with
  | operate op draws => exact h.after op
  | newObject parent answered =>
    have after := h.after (.newObject c.held parent)
    simp only [Operation.after, Operation.perform, Operation.snd_on_forget, answered] at after
    exact after
  | keep held covered => exact h

theorem Reached.reachable {c : Custody ο} (h : c.Reached) : c.arena.Reachable := by
  obtain ⟨policy, bindings, -, steps⟩ := h
  induction steps with
  | refl => exact .ofGlobals policy bindings
  | tail _ step ih => exact step.reachable ih

end Custody

end Fluent

import Fluent.Proofs.Arena.Reachable

/-!
# What an arena holds

The values bound in scopes and the prior values of the journal are held by the arena itself. Changes
of scopes hold nothing new, and a write holds the value written.

Main statement: `scope?_reclaim`, what is reclaimed is held by nobody.
-/
namespace Fluent

namespace Table

variable {κ α : Type} [DecidableEq κ]

/-- Binding a key brings in no value but the one bound. -/
theorem eq_or_mem_of_mem_values_insert {t : Table κ α} {key : κ} {value v : α}
    (h : v ∈ (t.insert key value).values) : v = value ∨ v ∈ t.values := by
  obtain ⟨entries⟩ := t
  simp only [values, insert] at h ⊢
  induction entries with
  | nil => simpa [bind] using h
  | cons entry rest ih =>
    obtain ⟨k, a⟩ := entry
    by_cases same : k = key
    · simp only [bind, same, if_true, List.map_cons, List.mem_cons] at h ⊢
      exact h.imp_right .inr
    · simp only [bind, same, if_false, List.map_cons, List.mem_cons] at h ⊢
      obtain h | h := h
      · exact .inr (.inl h)
      · exact (ih h).imp_right .inr

theorem mem_values_of_find? {t : Table κ α} {key : κ} {v : α} (h : t.find? key = some v) :
    v ∈ t.values := by
  obtain ⟨entries⟩ := t
  simp only [find?, values] at h ⊢
  induction entries with
  | nil => cases h
  | cons entry rest ih =>
    obtain ⟨k, a⟩ := entry
    simp only [lookup] at h
    split at h
    · cases h
      exact List.mem_cons_self
    · exact List.mem_cons_of_mem a (ih h)

end Table

namespace Arena

variable {ο : Type}

/-- The value is what the binding was before an open list's first write to it. -/
def IsPrior (journal : List Frame) (v : Value) : Prop :=
  ∃ frame ∈ journal, ∃ written ∈ frame.touched.values, written.prior = some v

/-- An arena holds what its scopes bind and what they bound before. -/
theorem mem_heldValues {a : Arena ο} {v : Value} :
    v ∈ a.heldValues ↔
      (∃ id s, a.scope? id = some s ∧ v ∈ s.bindings.values) ∨ IsPrior a.journal v := by
  have stored : (∃ slot ∈ a.slots.toList, ∃ s ∈ slot.scope.toList, v ∈ s.bindings.values) ↔
      ∃ id s, a.scope? id = some s ∧ v ∈ s.bindings.values := by
    constructor
    · rintro ⟨⟨generation, scope⟩, mem, s, hs, bound⟩
      obtain rfl : scope = some s := by simpa using hs
      obtain ⟨i, bounds, found⟩ := List.getElem_of_mem mem
      refine ⟨⟨i, generation⟩, s, (a.scope?_eq_some_iff _ _).2 ?_, bound⟩
      rw [← Array.getElem?_toList, List.getElem?_eq_getElem bounds, found]
    · rintro ⟨id, s, live, bound⟩
      have found := (a.scope?_eq_some_iff id s).1 live
      exact ⟨_, Array.mem_toList_iff.2 (Array.mem_of_getElem? found), s, by simp, bound⟩
  simp only [heldValues, List.mem_append, List.mem_flatMap, List.mem_filterMap, stored, IsPrior]

/-- What a binding reads as is held: it is stored, or it was. -/
theorem mem_heldValues_of_readUnder {a : Arena ο} {journal : List Frame}
    (sub : ∀ frame ∈ journal, frame ∈ a.journal) {id : ScopeId} {name : String} {v : Value}
    (h : a.readUnder journal id name = some v) : v ∈ a.heldValues := by
  have stored : a.stored? id name = some v → v ∈ a.heldValues := by
    intro found
    obtain ⟨s, live, bound⟩ := Option.bind_eq_some_iff.1 found
    exact mem_heldValues.2 (.inl ⟨id, s, live, Table.mem_values_of_find? bound⟩)
  induction journal with
  | nil => exact stored h
  | cons frame outer ih =>
    simp only [readUnder, masked?] at h ih
    split at h
    · rename_i written found
      split at h
      · exact stored h
      · have prior : written.prior = some v := h
        exact mem_heldValues.2 (.inr ⟨frame, sub frame List.mem_cons_self, written,
          Table.mem_values_of_find? found, prior⟩)
    · exact ih (fun f hf => sub f (List.mem_cons_of_mem frame hf)) h

/-- The prior values that a write enters in the journal were held. -/
theorem mem_heldValues_of_noteWrite {a : Arena ο} {created : Nat} {id : ScopeId} {name : String}
    {journal : List Frame} (sub : ∀ frame ∈ journal, frame ∈ a.journal) {v : Value}
    (h : IsPrior (a.noteWrite created id name journal).1 v) : v ∈ a.heldValues := by
  induction journal with
  | nil =>
    obtain ⟨frame, mem, -⟩ := h
    cases mem
  | cons first outer ih =>
    have subOuter : ∀ frame ∈ outer, frame ∈ a.journal := fun f hf =>
      sub f (List.mem_cons_of_mem first hf)
    obtain ⟨frame, mem, written, touched, prior⟩ := h
    rw [fst_noteWrite_cons, List.mem_cons] at mem
    have known : ∀ w ∈ first.touched.values, w.prior = some v → v ∈ a.heldValues :=
      fun w hw hp => mem_heldValues.2 (.inr ⟨first, sub first List.mem_cons_self, w, hw, hp⟩)
    obtain rfl | mem := mem
    · split at touched
      · exact known written touched prior
      · obtain rfl | touched := Table.eq_or_mem_of_mem_values_insert touched
        · dsimp only at prior
          split at prior
          · rename_i w found
            exact known w (Table.mem_values_of_find? found) prior
          · exact mem_heldValues_of_readUnder subOuter prior
        · exact known written touched prior
    · exact ih subOuter ⟨frame, mem, written, touched, prior⟩

/-- After a write the arena holds the value written, and nothing else that it did not hold. -/
theorem mem_heldValues_written {a : Arena ο} {id : ScopeId} {s : Scope ο}
    (live : a.scope? id = some s) {name : String} {value v : Value}
    (h : v ∈ (a.written id s name value).heldValues) : v = value ∨ v ∈ a.heldValues := by
  obtain ⟨other, t, there, bound⟩ | prior := mem_heldValues.1 h
  · rw [scope?_written live] at there
    split at there
    · cases there
      obtain rfl | bound := Table.eq_or_mem_of_mem_values_insert bound
      · exact .inl rfl
      · exact .inr (mem_heldValues.2 (.inl ⟨id, s, live, bound⟩))
    · exact .inr (mem_heldValues.2 (.inl ⟨other, t, there, bound⟩))
  · exact .inr (mem_heldValues_of_noteWrite (fun _ hf => hf) prior)

/-- Changes of scopes bind nothing. -/
theorem Turnovers.mem_heldValues {a b : Arena ο} (h : Turnovers a b) (wf : a.WellFormed) {v : Value}
    (held : v ∈ b.heldValues) : v ∈ a.heldValues := by
  obtain ⟨id, t, there, bound⟩ | prior := Arena.mem_heldValues.1 held
  · obtain ⟨s, here, same⟩ | ⟨-, empty⟩ := h.inherits wf there
    · rw [same] at bound
      exact Arena.mem_heldValues.2 (.inl ⟨id, s, here, bound⟩)
    · rw [empty] at bound
      cases bound
  · exact Arena.mem_heldValues.2 (.inr (h.journal_eq ▸ prior))

/-- A released scope no longer holds what it bound. -/
theorem mem_heldValues_release {a : Arena ο} {index : Nat} {v : Value}
    (h : v ∈ (a.release index).heldValues) : v ∈ a.heldValues := by
  obtain ⟨id, s, there, bound⟩ | prior := mem_heldValues.1 h
  · rw [scope?_release] at there
    split at there
    · cases there
    · exact mem_heldValues.2 (.inl ⟨id, s, there, bound⟩)
  · exact mem_heldValues.2 (.inr prior)

theorem mem_heldValues_foldl_release {gone : List Nat} {a : Arena ο} {v : Value}
    (h : v ∈ (gone.foldl release a).heldValues) : v ∈ a.heldValues := by
  induction gone generalizing a with
  | nil => exact h
  | cons index rest ih => exact mem_heldValues_release (ih h)

theorem mem_heldValues_reclaimRounds {held : List Value} {bound : Nat} {a : Arena ο} {v : Value}
    (h : v ∈ (reclaimRounds held bound a).2.heldValues) : v ∈ a.heldValues := by
  induction bound generalizing a with
  | zero => exact h
  | succ bound ih =>
    simp only [reclaimRounds] at h
    split at h
    · exact h
    · exact mem_heldValues_foldl_release (ih h)

theorem scope?_foldl_release (gone : List Nat) (a : Arena ο) (id : ScopeId) :
    (gone.foldl release a).scope? id = if id.index ∈ gone then none else a.scope? id := by
  induction gone generalizing a with
  | nil => simp
  | cons index rest ih =>
    rw [List.foldl_cons, ih, scope?_release]
    by_cases later : id.index ∈ rest
    · simp [later]
    · simp [later]

/-- Some of the values holds a handle to the object. -/
def HeldBy (values : List Value) (id : ScopeId) : Prop :=
  ∃ v ∈ values, id ∈ v.objects

theorem HeldBy.mono {values others : List Value} (h : ∀ v ∈ values, v ∈ others) {id : ScopeId}
    (held : HeldBy values id) : HeldBy others id := by
  obtain ⟨v, mem, handle⟩ := held
  exact ⟨v, h v mem, handle⟩

/-- The scope is an object's, and it is gone afterwards without anybody holding a handle to it. -/
def LetGo (a : Arena ο) (held : List Value) (b : Arena ο) (id : ScopeId) : Prop :=
  (∃ s, a.scope? id = some s ∧ s.kind = .object) ∧ b.scope? id = none ∧
    ¬ HeldBy (held ++ b.heldValues) id

/-- By induction on the rounds: what is held in the end was held in every round, so it is an orphan
in none. -/
theorem scope?_reclaimRounds (held : List Value) (bound : Nat) (a : Arena ο) (id : ScopeId) :
    (reclaimRounds held bound a).2.scope? id = a.scope? id ∨
      LetGo a held (reclaimRounds held bound a).2 id := by
  induction bound generalizing a with
  | zero => exact .inl rfl
  | succ bound ih =>
    simp only [reclaimRounds]
    split
    · exact .inl rfl
    · have round := scope?_foldl_release (a.orphans held) a id
      have rest := ih ((a.orphans held).foldl release a)
      dsimp only
      by_cases gone : id.index ∈ a.orphans held
      · rw [if_pos gone] at round
        have missing : (reclaimRounds held bound ((a.orphans held).foldl release a)).2.scope? id =
            none := by
          obtain same | ⟨-, none, -⟩ := rest
          · rw [same, round]
          · exact none
        obtain ⟨other, s, slot, live, object, free⟩ := (a.mem_orphans held id.index).1 gone
        cases here : a.scope? id with
        | none => exact .inl missing
        | some t =>
          obtain rfl : other = id := by
            have found := (a.scope?_eq_some_iff other s).1 live
            rw [slot, (a.scope?_eq_some_iff id t).1 here] at found
            simp only [Option.some.injEq, Slot.mk.injEq] at found
            exact ScopeId.eq_of_index_of_generation slot found.1.symm
          refine .inr ⟨⟨s, live, object⟩, missing, ?_⟩
          rintro ⟨v, mem, handle⟩
          refine free v ?_ handle
          rw [List.mem_append] at mem ⊢
          exact mem.imp_right fun h => mem_heldValues_foldl_release (mem_heldValues_reclaimRounds h)
      · rw [if_neg gone] at round
        rwa [LetGo, round] at rest

theorem scope?_reclaim (held : List Value) (a : Arena ο) (id : ScopeId) :
    (a.reclaim held).2.scope? id = a.scope? id ∨ LetGo a held (a.reclaim held).2 id :=
  scope?_reclaimRounds held a.liveCount a id

end Arena

end Fluent

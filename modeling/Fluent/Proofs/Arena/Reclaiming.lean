import Fluent.Proofs.Arena.Holding
import Fluent.Proofs.Arena.Slots

/-!
# What reclaiming leaves, and what it does not

Scopes that keep one another up stay when an arena reclaims, also where objects hold one another in
a circle. What stays is held: every round but the last releases a scope, and there are no more
rounds than scopes.

Main statements: `Sustained.scope?_reclaim`, what stays; `WellFormed.heldBy_of_reclaim`, every
object that stays is held.
-/
namespace Fluent.Arena

variable {ο : Type}

/-- The scopes are there, and every object among them is held: by the values, or by a binding of one
of them. -/
def Sustained (a : Arena ο) (held : List Value) (group : ScopeId → Prop) : Prop :=
  ∀ id, group id → ∃ s, a.scope? id = some s ∧
    (s.kind = .object → HeldBy held id ∨
      ∃ other t, group other ∧ a.scope? other = some t ∧ HeldBy t.bindings.values id)

theorem Sustained.congr {a b : Arena ο} {held : List Value} {group : ScopeId → Prop}
    (h : a.Sustained held group) (same : ∀ id, group id → b.scope? id = a.scope? id) :
    b.Sustained held group := by
  intro id member
  obtain ⟨s, live, holder⟩ := h id member
  refine ⟨s, (same id member).trans live, fun object => (holder object).imp_right ?_⟩
  rintro ⟨other, t, known, there, binds⟩
  exact ⟨other, t, known, (same other known).trans there, binds⟩

/-- None of them is without a holder. -/
theorem Sustained.index_not_mem_orphans {a : Arena ο} {held : List Value} {group : ScopeId → Prop}
    (h : a.Sustained held group) {id : ScopeId} (member : group id) :
    id.index ∉ a.orphans held := by
  intro orphan
  obtain ⟨other, s, slot, live, object, free⟩ := (a.mem_orphans held id.index).1 orphan
  obtain ⟨t, here, holder⟩ := h id member
  obtain rfl := eq_of_index_eq live here slot
  rw [live] at here
  cases here
  obtain ⟨v, mem, handle⟩ | ⟨owner, u, -, there, v, bound, handle⟩ := holder object
  · exact free v (List.mem_append_left _ mem) handle
  · exact free v (List.mem_append_right _ (mem_heldValues.2 (.inl ⟨owner, u, there, bound⟩))) handle

/-- By induction on the rounds: the scopes are as they were after each. -/
theorem Sustained.scope?_reclaimRounds {held : List Value} {group : ScopeId → Prop} (bound : Nat)
    {a : Arena ο} (h : a.Sustained held group) {id : ScopeId} (member : group id) :
    (reclaimRounds held bound a).2.scope? id = a.scope? id := by
  induction bound generalizing a with
  | zero => rfl
  | succ bound ih =>
    have round : ∀ other, group other →
        ((a.orphans held).foldl release a).scope? other = a.scope? other := by
      intro other known
      rw [scope?_foldl_release, if_neg (h.index_not_mem_orphans known)]
    simp only [reclaimRounds]
    split
    · rfl
    · exact (ih (h.congr round)).trans (round id member)

theorem Sustained.scope?_reclaim {a : Arena ο} {held : List Value} {group : ScopeId → Prop}
    (h : a.Sustained held group) {id : ScopeId} (member : group id) :
    (a.reclaim held).2.scope? id = a.scope? id :=
  h.scope?_reclaimRounds a.liveCount member

theorem length_free_foldl_release (gone : List Nat) (a : Arena ο) :
    (gone.foldl release a).free.length = gone.length + a.free.length := by
  induction gone generalizing a with
  | nil => simp
  | cons index rest ih =>
    rw [List.foldl_cons, ih, List.length_cons]
    show rest.length + (a.free.length + 1) = _
    omega

@[simp] theorem size_slots_foldl_release (gone : List Nat) (a : Arena ο) :
    (gone.foldl release a).slots.size = a.slots.size := by
  induction gone generalizing a with
  | nil => rfl
  | cons index rest ih =>
    rw [List.foldl_cons, ih]
    exact Array.size_modify

theorem WellFormed.foldl_release_orphans {a : Arena ο} (h : a.WellFormed) (held : List Value) :
    ((a.orphans held).foldl Arena.release a).WellFormed := by
  have turnovers : Turnovers a ((a.orphans held).foldl Arena.release a) :=
    (a.drops_foldl_release_orphans held).lift (fun b => b) fun _ _ drop => drop.turnover
  exact turnovers.wellFormed h

/-- Every round releases as many scopes as there are orphans. -/
theorem WellFormed.liveCount_foldl_release_orphans {a : Arena ο} (h : a.WellFormed)
    (held : List Value) :
    (a.orphans held).length + ((a.orphans held).foldl Arena.release a).liveCount = a.liveCount := by
  have before := h.liveCount_add_length_free
  have after := (h.foldl_release_orphans held).liveCount_add_length_free
  rw [length_free_foldl_release, size_slots_foldl_release] at after
  omega

theorem WellFormed.liveCount_pos {a : Arena ο} (h : a.WellFormed) : 0 < a.liveCount := by
  obtain ⟨g, live, -⟩ := h.global_live
  rw [scope?_eq_some_iff] at live
  exact Array.countP_pos_iff.2 ⟨_, Array.mem_of_getElem? live, rfl⟩

/-- By induction on the rounds: there is none left to make when no orphan is. -/
theorem WellFormed.orphans_reclaimRounds {held : List Value} (bound : Nat) {a : Arena ο}
    (h : a.WellFormed) (enough : a.liveCount ≤ bound) :
    (reclaimRounds held bound a).2.orphans held = [] := by
  induction bound generalizing a with
  | zero =>
    have some := h.liveCount_pos
    omega
  | succ bound ih =>
    simp only [reclaimRounds]
    split
    · rename_i none
      exact List.isEmpty_iff.1 none
    · rename_i some
      have fewer := h.liveCount_foldl_release_orphans held
      have gone : 0 < (a.orphans held).length := by
        rw [List.length_pos_iff]
        exact fun none => some (List.isEmpty_iff.2 none)
      exact ih (h.foldl_release_orphans held) (by omega)

/-- After a reclaim every object is held, by the values or by the arena. -/
theorem WellFormed.heldBy_of_reclaim {a : Arena ο} (h : a.WellFormed) {held : List Value}
    {id : ScopeId} {s : Scope ο} (live : (a.reclaim held).2.scope? id = some s)
    (object : s.kind = .object) : HeldBy (held ++ (a.reclaim held).2.heldValues) id := by
  have none : (a.reclaim held).2.orphans held = [] := h.orphans_reclaimRounds _ (Nat.le_refl _)
  by_contra free
  have orphan : id.index ∈ (a.reclaim held).2.orphans held :=
    (mem_orphans _ held id.index).2 ⟨id, s, rfl, live, object, fun v mem handle =>
      free ⟨v, mem, handle⟩⟩
  rw [none] at orphan
  cases orphan

/-- A slot has a scope if one of its handles is live. -/
theorem exists_isLive_iff (a : Arena ο) (index : Nat) :
    (a.slots.toList[index]?.any fun slot => slot.scope.isSome) = true ↔
      ∃ id, id.index = index ∧ a.isLive id = true := by
  rw [Array.getElem?_toList]
  constructor
  · intro h
    obtain ⟨⟨generation, scope⟩, found, some⟩ := (Option.any_eq_true _ _).1 h
    obtain ⟨s, rfl⟩ := Option.isSome_iff_exists.1 some
    exact ⟨⟨index, generation⟩, rfl, (a.isLive_iff _).2 ⟨s, (a.scope?_eq_some_iff _ _).2 found⟩⟩
  · rintro ⟨id, rfl, live⟩
    obtain ⟨s, here⟩ := (a.isLive_iff id).1 live
    rw [(a.scope?_eq_some_iff id s).1 here]
    rfl

/-- Arenas in which the same handles are live have as many scopes. -/
theorem liveCount_congr {a b : Arena ο} (h : ∀ id, a.isLive id = b.isLive id) :
    a.liveCount = b.liveCount := by
  have counted : ∀ c : Arena ο, c.liveCount =
      ((List.range c.slots.toList.length).filter fun i =>
        c.slots.toList[i]?.any fun slot => slot.scope.isSome).length := fun c => by
    rw [length_filter_range, liveCount, ← Array.countP_toList]
  have below : ∀ (c : Arena ο) i, (∃ id, id.index = i ∧ c.isLive id = true) →
      i < c.slots.toList.length := by
    rintro c _ ⟨id, rfl, live⟩
    exact index_lt_of_isLive live
  rw [counted, counted]
  refine List.Perm.length_eq ((List.perm_ext_iff_of_nodup (List.nodup_range.filter _)
    (List.nodup_range.filter _)).2 fun i => ?_)
  simp only [List.mem_filter, List.mem_range, exists_isLive_iff, h]
  constructor
  · rintro ⟨-, there⟩
    exact ⟨below b i there, there⟩
  · rintro ⟨-, there⟩
    exact ⟨below a i (by simpa only [h] using there), there⟩

end Fluent.Arena

import Mathlib.Data.List.Induction
import Fluent.Proofs.Arena.Lasting
import Fluent.Proofs.Arena.Parents

/-!
# Slots and the handles to them

Slots are used again and again. The free list names the slots that are empty, and a slot counts in
its generation how often its scope has been released, so a handle is live until its own scope is
released and stale from then on, as long as the count does not come round.

Main statements: `liveCount_add_length_free`, every slot is free or has a scope; `generation_afterAll`,
generations count releases; `slots_and_handles_accounted`.
-/
namespace Fluent

namespace Arena

variable {ο : Type}

/-- The slots that reclaiming releases, in order, in at most so many rounds. -/
def reclaimedSlots (held : List Value) : Nat → Arena ο → List Nat
  | 0, _ => []
  | bound + 1, a =>
    let gone := a.orphans held
    if gone.isEmpty then [] else gone ++ reclaimedSlots held bound (gone.foldl release a)

/-- Reclaiming counts the releases that it makes and does nothing else. -/
theorem reclaimRounds_eq (held : List Value) (bound : Nat) (a : Arena ο) :
    reclaimRounds held bound a =
      ((a.reclaimedSlots held bound).length, (a.reclaimedSlots held bound).foldl release a) := by
  induction bound generalizing a with
  | zero => rfl
  | succ bound ih =>
    simp only [reclaimRounds, reclaimedSlots]
    split
    · rfl
    · rw [ih, List.length_append, List.foldl_append]

theorem snd_reclaim (a : Arena ο) (held : List Value) :
    (a.reclaim held).2 = (a.reclaimedSlots held a.liveCount).foldl release a := by
  rw [reclaim, reclaimRounds_eq]

@[simp] theorem clock_foldl_release (gone : List Nat) (a : Arena ο) :
    (gone.foldl release a).clock = a.clock := by
  induction gone generalizing a with
  | nil => rfl
  | cons index rest ih => rw [List.foldl_cons, ih, clock_release]

/-- Every release of a slot adds one to its generation. -/
theorem exists_slot_of_foldl_release (gone : List Nat) {a : Arena ο} {index : Nat} {slot : Slot ο}
    (found : a.slots[index]? = some slot) :
    ∃ slot', (gone.foldl release a).slots[index]? = some slot' ∧
      slot'.generation = slot.generation + UInt32.ofNat (gone.count index) := by
  induction gone generalizing a slot with
  | nil => exact ⟨slot, found, by simp⟩
  | cons other rest ih =>
    rw [List.foldl_cons]
    have first := a.getElem?_slots_release other index
    rw [found] at first
    by_cases same : other = index
    · rw [if_pos same] at first
      obtain ⟨slot', there, counted⟩ := ih first
      refine ⟨slot', there, ?_⟩
      rw [counted, same, List.count_cons_self, UInt32.ofNat_add, UInt32.add_assoc,
        UInt32.add_comm 1]
      rfl
    · rw [if_neg same] at first
      obtain ⟨slot', there, counted⟩ := ih first
      exact ⟨slot', there, by rw [counted, List.count_cons_of_ne same]⟩

/-- A new scope takes a slot with the generation that the slot has. -/
theorem WellFormed.exists_slot_of_allocate {a : Arena ο} (h : a.WellFormed) (s : Scope ο)
    {index : Nat} {slot : Slot ο} (found : a.slots[index]? = some slot) :
    ∃ slot', (a.allocate s).2.slots[index]? = some slot' ∧ slot'.generation = slot.generation := by
  have after := h.getElem?_slots_allocate s index
  by_cases new : index = (a.allocate s).1.index
  · rw [if_pos new] at after
    refine ⟨_, after, ?_⟩
    obtain empty | ⟨missing, -⟩ := h.getElem?_fst_allocate s
    · rw [← new, found] at empty
      cases empty
      rfl
    · rw [← new, found] at missing
      cases missing
  · rw [if_neg new] at after
    exact ⟨slot, after.trans found, rfl⟩

/-- Whatever is counted in a list is counted at its places. -/
theorem length_filter_range {α : Type} (p : α → Bool) (items : List α) :
    ((List.range items.length).filter fun i => items[i]?.any p).length = items.countP p := by
  induction items using List.reverseRecOn with
  | nil => rfl
  | append_singleton items last ih =>
    have before : ((List.range items.length).filter fun i => (items ++ [last])[i]?.any p) =
        (List.range items.length).filter fun i => items[i]?.any p := by
      refine List.filter_congr fun i hi => ?_
      rw [List.getElem?_append_left (List.mem_range.1 hi)]
    rw [List.length_append, List.length_singleton, List.range_succ, List.filter_append,
      List.length_append, before, ih, List.countP_append]
    by_cases h : p last <;> simp [h]

/-- Every slot is in the free list or has a scope. -/
theorem WellFormed.liveCount_add_length_free {a : Arena ο} (h : a.WellFormed) :
    a.liveCount + a.free.length = a.slots.size := by
  have places : a.free.Perm
      ((List.range a.slots.toList.length).filter fun i =>
        a.slots.toList[i]?.any fun slot => !slot.scope.isSome) := by
    refine (List.perm_ext_iff_of_nodup h.free_nodup (List.nodup_range.filter _)).2 fun i => ?_
    rw [h.free_iff, List.mem_filter, List.mem_range, Array.getElem?_toList]
    cases found : a.slots[i]? with
    | none => simp
    | some slot =>
      have bound := (Array.getElem?_eq_some_iff.1 found).1
      obtain ⟨generation, _ | s⟩ := slot
      · simp [bound]
      · simp
  have split := List.length_eq_countP_add_countP (l := a.slots.toList) fun slot => slot.scope.isSome
  rw [places.length_eq, length_filter_range, liveCount, ← Array.countP_toList, ← Array.length_toList,
    split]
  exact congrArg _ (List.countP_congr fun slot _ => by simp)

end Arena

namespace Operation

variable {ο : Type}

open Arena

/-- The slots that the operation releases, in order. -/
def released (op : Operation ο) (a : Arena ο) : List Nat :=
  match op with
  | popFunction scope =>
    match a.scope? scope with
    | some s => if s.kind = .function then [scope.index] else []
    | none => []
  | newObject held parent =>
    match parent.filter fun p => !a.isLive p with
    | none => a.reclaimedSlots held a.liveCount
    | some _ => []
  | reclaim held => a.reclaimedSlots held a.liveCount
  | _ => []

/-- How often the slot is released by the operations, one after the other. -/
def releases (index : Nat) : List (Operation ο) → Arena ο → Nat
  | [], _ => 0
  | op :: ops, a => (op.released a).count index + releases index ops (op.after a)

/-- The handle that the operation answers, if it makes a scope. -/
def answer? (op : Operation ο) (a : Arena ο) : Option ScopeId :=
  match op with
  | pushFunction parent => ((Arena.pushFunction parent).on a).1.toOption
  | newObject held parent => ((Arena.newObject held parent).on a).1.toOption
  | _ => none

/-- A scope that is exchanged has the slot that it had. -/
theorem exists_slot_of_put (a : Arena ο) (id : ScopeId) (s : Scope ο) {index : Nat} {slot : Slot ο}
    (found : a.slots[index]? = some slot) :
    ∃ slot', (a.put id s).slots[index]? = some slot' ∧ slot'.generation = slot.generation := by
  rw [getElem?_slots_put, found]
  split
  · exact ⟨_, rfl, rfl⟩
  · exact ⟨slot, rfl, rfl⟩

theorem exists_slot_of_define (a : Arena ο) (id : ScopeId) (name : String) (value : Value)
    {index : Nat} {slot : Slot ο} (found : a.slots[index]? = some slot) :
    ∃ slot', ((Arena.define id name value).on a).2.slots[index]? = some slot' ∧
      slot'.generation = slot.generation := by
  rw [on_define]
  split
  · rename_i s live
    exact exists_slot_of_put a id { s with bindings := s.bindings.insert name value } found
  · exact ⟨slot, found, rfl⟩

/-- An operation adds to the generation of a slot how often it releases the slot. -/
theorem generation_after (op : Operation ο) {a : Arena ο} (wf : a.WellFormed) {index : Nat}
    {slot : Slot ο} (found : a.slots[index]? = some slot) :
    ∃ slot', (op.after a).slots[index]? = some slot' ∧
      slot'.generation = slot.generation + UInt32.ofNat ((op.released a).count index) := by
  have spared : ∀ {b : Arena ο}, (∃ slot', b.slots[index]? = some slot' ∧
      slot'.generation = slot.generation) → ∃ slot', b.slots[index]? = some slot' ∧
        slot'.generation = slot.generation + UInt32.ofNat (([] : List Nat).count index) := by
    rintro b ⟨slot', there, same⟩
    exact ⟨slot', there, by simp [same]⟩
  cases op with
  | define scope name value => exact spared (exists_slot_of_define a scope name value found)
  | assign scope name value =>
    refine spared ?_
    simp only [after, perform, on_assign]
    split
    · exact exists_slot_of_define a _ name value found
    · exact ⟨slot, found, rfl⟩
    · exact exists_slot_of_define a scope name value found
  | observe scope observer =>
    refine spared ?_
    simp only [after, perform, snd_on_forget, on_observe]
    split
    · split
      · exact exists_slot_of_put a scope _ found
      · exact ⟨slot, found, rfl⟩
    · exact ⟨slot, found, rfl⟩
  | setPolicy policy => exact spared ⟨slot, found, rfl⟩
  | pushFunction parent =>
    refine spared ?_
    simp only [after, perform, snd_on_forget, on_pushFunction]
    split
    · exact wf.exists_slot_of_allocate _ found
    · exact ⟨slot, found, rfl⟩
  | popFunction scope =>
    simp only [after, perform, snd_on_forget, on_popFunction, released]
    cases live : a.scope? scope with
    | none => exact spared ⟨slot, found, rfl⟩
    | some s =>
      by_cases function : s.kind = .function
      · simp only [function, if_true]
        exact exists_slot_of_foldl_release [scope.index] found
      · simp only [function, if_false]
        exact spared ⟨slot, found, rfl⟩
  | newObject held parent =>
    simp only [after, perform, snd_on_forget, on_newObject, released]
    cases parent.filter fun p => !a.isLive p with
    | some stale => exact spared ⟨slot, found, rfl⟩
    | none =>
      have reclaimed := (a.turnovers_reclaim held).wellFormed wf
      obtain ⟨slot₁, there, counted⟩ :=
        exists_slot_of_foldl_release (a.reclaimedSlots held a.liveCount) found
      rw [← snd_reclaim] at there
      obtain ⟨slot₂, last, same⟩ := reclaimed.exists_slot_of_allocate (blank .object parent) there
      exact ⟨slot₂, last, same.trans counted⟩
  | reclaim held =>
    have after : (Operation.reclaim held).after a =
        (a.reclaimedSlots held a.liveCount).foldl release a := a.snd_reclaim held
    rw [after]
    exact exists_slot_of_foldl_release _ found
  | openArguments => exact spared ⟨slot, found, rfl⟩
  | beginArgument i =>
    refine spared ⟨slot, ?_, rfl⟩
    show (a.beginArgument i).slots[index]? = some slot
    rw [slots_beginArgument, found]
  | closeArguments => exact spared ⟨slot, found, rfl⟩

/-- The slot of a scope that an operation finishes is among those that it releases. -/
theorem Finishes.mem_released {a : Arena ο} {id : ScopeId} {op : Operation ο}
    (h : Finishes a id op) : id.index ∈ op.released a := by
  have let_go : ∀ {held : List Value}, LetGo a held (a.reclaim held).2 id →
      id.index ∈ a.reclaimedSlots held a.liveCount := by
    rintro held ⟨⟨s, here, -⟩, gone, -⟩
    rw [snd_reclaim, scope?_foldl_release] at gone
    split at gone
    · assumption
    · rw [here] at gone
      cases gone
  cases h with
  | popFunction live function => simp [released, live, function]
  | reclaim gone => exact let_go gone
  | @newObject held parent other b answered gone =>
    rw [on_newObject] at answered
    cases valid : parent.filter fun p => !a.isLive p with
    | some p =>
      rw [valid] at answered
      cases answered
    | none =>
      simp only [released, valid]
      exact let_go gone

theorem releases_append (index : Nat) (ops more : List (Operation ο)) (a : Arena ο) :
    releases index (ops ++ more) a = releases index ops a + releases index more (afterAll ops a) := by
  induction ops generalizing a with
  | nil => simp [releases]
  | cons op ops ih => simp [releases, ih, Nat.add_assoc]

/-- By induction on the operations: generations count releases. -/
theorem generation_afterAll (ops : List (Operation ο)) {a : Arena ο} (wf : a.WellFormed)
    {index : Nat} {slot : Slot ο} (found : a.slots[index]? = some slot) :
    ∃ slot', (afterAll ops a).slots[index]? = some slot' ∧
      slot'.generation = slot.generation + UInt32.ofNat (releases index ops a) := by
  induction ops generalizing a slot with
  | nil => exact ⟨slot, found, by simp [releases]⟩
  | cons op ops ih =>
    obtain ⟨slot₁, there, counted⟩ := op.generation_after wf found
    obtain ⟨slot₂, last, counted'⟩ := ih ((op.changes a).wellFormed wf) there
    refine ⟨slot₂, last, ?_⟩
    rw [counted', counted, releases, UInt32.ofNat_add, UInt32.add_assoc]

/-- Until generations come round, a scope is live under its handle as long as its slot has not been
released, and nothing is live under it from then on. -/
theorem isLive_afterAll_iff (ops : List (Operation ο)) {a : Arena ο} (wf : a.WellFormed)
    {id : ScopeId} {s : Scope ο} (here : a.scope? id = some s)
    (few : releases id.index ops a < 2 ^ 32) :
    (releases id.index ops a = 0 → ∃ t, (afterAll ops a).scope? id = some t ∧ s.Akin t) ∧
      ((afterAll ops a).isLive id = true ↔ releases id.index ops a = 0) := by
  have stays : releases id.index ops a = 0 → ∃ t, (afterAll ops a).scope? id = some t ∧ s.Akin t := by
    intro none
    obtain live | ⟨earlier, op, later, split, finishes⟩ := akin_or_finished ops wf here
    · exact live
    · have counted := List.count_pos_iff.2 finishes.mem_released
      rw [split, releases_append, releases] at none
      omega
  refine ⟨stays, fun live => ?_, fun none => ?_⟩
  · obtain ⟨t, there⟩ := (isLive_iff _ _).1 live
    obtain ⟨slot, last, counted⟩ :=
      generation_afterAll ops wf ((a.scope?_eq_some_iff id s).1 here)
    rw [scope?_eq_some_iff, last] at there
    cases there
    have zero : UInt32.ofNat (releases id.index ops a) = 0 := by
      simpa using counted
    have small := congrArg UInt32.toNat zero
    rwa [UInt32.toNat_ofNat_of_lt' few] at small
  · obtain ⟨t, there, -⟩ := stays none
    exact (isLive_iff _ _).2 ⟨t, there⟩

/-- The handle to a new object is none of those that were live, also where the object takes the slot
of one that is reclaimed for it. -/
theorem ne_fst_allocate_reclaim {a : Arena ο} (wf : a.WellFormed) (held : List Value) (s : Scope ο)
    {other : ScopeId} (live : a.isLive other = true) :
    other ≠ ((a.reclaim held).2.allocate s).1 := by
  intro same
  obtain ⟨t, here⟩ := (isLive_iff _ _).1 live
  have turnovers := a.turnovers_reclaim held
  have taken := (turnovers.wellFormed wf).generation_fst_allocate s
  obtain ⟨k, hk, next⟩ := turnovers.changes.exists_nextGeneration wf other.index
  have clock : (a.reclaim held).2.clock = a.clock := by rw [snd_reclaim, clock_foldl_release]
  obtain rfl : k = 0 := by omega
  -- the slot's next generation comes after that of its present scope, released or not
  have present : a.nextGeneration other.index = other.generation + 1 := by
    rw [nextGeneration, (a.scope?_eq_some_iff other t).1 here]
  rw [← same, next, present] at taken
  simp at taken

/-- A new handle is none of those that were live, and it is live from then on. The other scopes that
are live then are what they were. -/
theorem answer?_fresh {op : Operation ο} {a : Arena ο} (wf : a.WellFormed) {id : ScopeId}
    (answered : op.answer? a = some id) :
    (∀ other, a.isLive other = true → other ≠ id) ∧ (op.after a).isLive id = true ∧
      ∀ other, other ≠ id → (op.after a).isLive other = true →
        (op.after a).scope? other = a.scope? other := by
  cases op with
  | pushFunction parent =>
    simp only [answer?, after, perform, snd_on_forget, on_pushFunction] at answered ⊢
    cases live : a.scope? parent with
    | none =>
      rw [live] at answered
      cases answered
    | some p =>
      rw [live] at answered
      cases answered
      have found := wf.scope?_allocate (blank .function (some parent))
      have missing := wf.scope?_fst_allocate (blank .function (some parent))
      refine ⟨?_, ?_, fun other different _ => ?_⟩
      · rintro other here rfl
        rw [isLive, missing] at here
        cases here
      · simp [isLive, found]
      · rw [found, if_neg different]
  | newObject held parent =>
    simp only [answer?, after, perform, snd_on_forget, on_newObject] at answered ⊢
    cases stale : parent.filter fun p => !a.isLive p with
    | some p =>
      rw [stale] at answered
      cases answered
    | none =>
      rw [stale] at answered
      cases answered
      have reclaimed := (a.turnovers_reclaim held).wellFormed wf
      have found := reclaimed.scope?_allocate (blank .object parent)
      refine ⟨fun other => ne_fst_allocate_reclaim wf held _, ?_, fun other different there => ?_⟩
      · simp [isLive, found]
      · have before := found other
        rw [if_neg different] at before
        obtain ⟨t, live⟩ := (isLive_iff _ _).1 there
        obtain same | ⟨-, gone, -⟩ := scope?_reclaim held a other
        · exact before.trans same
        · rw [before, gone] at live
          cases live
  | _ => cases answered

/-- Empty slots are in the free list, each once, and every other slot has a scope. A new handle is
new. Until `2 ^ 32` releases of its slot have followed, the scope is live under it exactly until the
first of them, and nothing is live under it later. -/
theorem slots_and_handles_accounted (policy : AssignmentPolicy) (bindings : List (String × Value))
    (ops : List (Operation ο)) :
    let start : Arena ο := ofGlobals policy bindings
    let a := afterAll ops start
    (a.free.Nodup ∧ (∀ i : Nat, i ∈ a.free ↔ ∃ generation, a.slots[i]? = some ⟨generation, none⟩) ∧
      global.index ∉ a.free) ∧
    (∃ s, a.scope? global = some s ∧ s.kind = .global) ∧
    a.liveCount + a.free.length = a.slots.size ∧
    (∀ (op : Operation ο) id, op.answer? a = some id →
      (∀ other, a.isLive other = true → other ≠ id) ∧ (op.after a).isLive id = true ∧
        ∀ other, other ≠ id → (op.after a).isLive other = true →
          (op.after a).scope? other = a.scope? other) ∧
    ∀ before op later id, ops = before ++ op :: later →
      op.answer? (afterAll before start) = some id →
        let made := op.after (afterAll before start)
        releases id.index later made < 2 ^ 32 →
          (releases id.index later made = 0 →
            ∃ s t, made.scope? id = some s ∧ a.scope? id = some t ∧ s.Akin t) ∧
          (a.isLive id = true ↔ releases id.index later made = 0) := by
  intro start a
  have wf : ∀ ops, (afterAll ops start).WellFormed := fun ops =>
    wellFormed_afterAll ops (wellFormed_ofGlobals policy bindings)
  obtain ⟨g, live, kind, -⟩ := (wf ops).global_live
  refine ⟨⟨(wf ops).free_nodup, (wf ops).free_iff, (wf ops).index_not_mem_free live⟩,
    ⟨g, live, kind⟩, (wf ops).liveCount_add_length_free, fun op id => answer?_fresh (wf ops), ?_⟩
  rintro before op later id split answered made few
  have wfMade : made.WellFormed := (op.changes _).wellFormed (wf before)
  obtain ⟨-, there, -⟩ := answer?_fresh (wf before) answered
  obtain ⟨s, here⟩ := (isLive_iff _ _).1 there
  have last : a = afterAll later made := by
    show afterAll ops start = _
    rw [split, afterAll_append]
    rfl
  obtain ⟨stays, live⟩ := isLive_afterAll_iff later wfMade here few
  rw [← last] at stays live
  refine ⟨fun none => ?_, live⟩
  obtain ⟨t, present, akin⟩ := stays none
  exact ⟨s, t, here, present, akin⟩

/-- A slot that an activation has left is given to the next one under another handle. -/
theorem slots_and_handles_accounted_reused :
    let made : Arena Unit := afterAll [.newObject [] none, .pushFunction ⟨1, 0⟩] (ofGlobals .strict [])
    let later : List (Operation Unit) := [.popFunction ⟨2, 0⟩, .pushFunction global]
    releases 2 later made = 1 ∧
      ((afterAll later made).isLive ⟨2, 0⟩ = true ↔ releases 2 later made = 0) ∧
      (afterAll later made).liveCount + (afterAll later made).free.length = 3 ∧
      ∀ other, (afterAll later made).isLive other = true → other ≠ ⟨3, 0⟩ := by
  intro made later
  have once : releases 2 later made = 1 := rfl
  have few : releases 2 later made < 2 ^ 32 := by
    rw [once]
    decide
  obtain ⟨-, -, count, fresh, live⟩ := slots_and_handles_accounted .strict []
    ([.newObject [] none, .pushFunction ⟨1, 0⟩, .popFunction ⟨2, 0⟩, .pushFunction global] :
      List (Operation Unit))
  have ended := (live [.newObject [] none] (.pushFunction ⟨1, 0⟩) later ⟨2, 0⟩ rfl rfl few).2
  exact ⟨once, ended, count, (fresh (.pushFunction global) ⟨3, 0⟩ rfl).1⟩

end Operation

end Fluent

import Mathlib.Algebra.Group.Nat.Defs
import Mathlib.Logic.Relation
import Fluent.Proofs.Arena.Operation

/-!
# Reachable arenas

Every operation is a sequence of a few kinds of change, and what holds of the arenas that operations
lead to is proved once for each kind. An arena is well formed if its free list names the empty
slots, each once, if nothing in it is younger than its clock, and if its global scope is there.
-/
namespace Fluent

theorem ScopeId.eq_of_index_of_generation {id other : ScopeId} (hi : id.index = other.index)
    (hg : id.generation = other.generation) : id = other := by
  cases id
  cases other
  simp_all

namespace Arena

variable {ο : Type}

/-- A change that touches neither a binding nor an open list. The global scope is not released. -/
inductive Turnover : Arena ο → Arena ο → Prop where
  | observe {a : Arena ο} {id : ScopeId} {s : Scope ο} (live : a.scope? id = some s)
      (observers : List ο) : Turnover a (a.put id { s with observers := observers })
  | release {a : Arena ο} {id : ScopeId} {s : Scope ο} (live : a.scope? id = some s)
      (h : s.kind ≠ .global) : Turnover a (a.release id.index)
  | make {a : Arena ο} {kind : ScopeKind} (h : kind ≠ .global) (parent : Option ScopeId) :
      Turnover a (a.allocate (blank kind parent)).2
  | policy {a : Arena ο} (policy : AssignmentPolicy) : Turnover a { a with policy := policy }

/-- One change of an arena. -/
inductive Change : Arena ο → Arena ο → Prop where
  | write {a : Arena ο} {id : ScopeId} {s : Scope ο} (live : a.scope? id = some s)
      (name : String) (value : Value) : Change a (a.written id s name value)
  | turnover {a b : Arena ο} (h : Turnover a b) : Change a b
  | openArguments {a : Arena ο} : Change a a.openArguments
  | beginArgument {a : Arena ο} (index : Nat) : Change a (a.beginArgument index)
  | closeArguments {a : Arena ο} : Change a a.closeArguments

/-- The second arena comes from the first by changes of bindings, scopes and lists. -/
abbrev Changes : Arena ο → Arena ο → Prop :=
  Relation.ReflTransGen Change

/-- The second arena comes from the first by changes of scopes alone. -/
abbrev Turnovers : Arena ο → Arena ο → Prop :=
  Relation.ReflTransGen Turnover

/-- The second arena comes from the first by releasing an object. -/
def Drops (a b : Arena ο) : Prop :=
  ∃ id s, a.scope? id = some s ∧ s.kind = .object ∧ b = a.release id.index

theorem Drops.turnover {a b : Arena ο} (h : Drops a b) : Turnover a b := by
  obtain ⟨id, s, live, object, rfl⟩ := h
  exact .release live (by simp [object])

theorem Turnovers.changes {a b : Arena ο} (h : Turnovers a b) : Changes a b :=
  h.lift (fun c => c) fun _ _ => Change.turnover

theorem hasObject_release {a : Arena ο} {i j : Nat} (h : i ≠ j) :
    (a.release i).hasObject j = a.hasObject j := by
  simp [hasObject, release, Array.getElem?_modify, h]

/-- Objects that have different slots can be released one after the other. -/
theorem drops_foldl_release (gone : List Nat) (a : Arena ο) (hn : gone.Nodup)
    (ho : ∀ i ∈ gone, a.hasObject i = true) :
    Relation.ReflTransGen Drops a (gone.foldl release a) := by
  induction gone generalizing a with
  | nil => exact .refl
  | cons i rest ih =>
    rw [List.nodup_cons] at hn
    obtain ⟨generation, s, found, object⟩ := (a.hasObject_iff i).1 (ho i (by simp))
    have first : Drops a (a.release i) :=
      ⟨⟨i, generation⟩, s, (a.scope?_eq_some_iff _ _).2 found, object, rfl⟩
    refine .head first (ih _ hn.2 ?_)
    intro j hj
    have hij : i ≠ j := by
      rintro rfl
      exact hn.1 hj
    rw [hasObject_release hij]
    exact ho j (List.mem_cons_of_mem i hj)

/-- The objects that nobody holds have slots of their own. -/
theorem drops_foldl_release_orphans (a : Arena ο) (held : List Value) :
    Relation.ReflTransGen Drops a ((a.orphans held).foldl release a) := by
  have hn : (a.orphans held).Nodup := List.nodup_range.filter _
  have ho : ∀ i ∈ a.orphans held, a.hasObject i = true := by
    intro i hi
    simp only [orphans, List.mem_filter, Bool.and_eq_true] at hi
    exact hi.2.1
  exact drops_foldl_release _ a hn ho

theorem drops_reclaimRounds (held : List Value) (bound : Nat) (a : Arena ο) :
    Relation.ReflTransGen Drops a (reclaimRounds held bound a).2 := by
  induction bound generalizing a with
  | zero => exact .refl
  | succ bound ih =>
    simp only [reclaimRounds]
    split
    · exact .refl
    · exact (a.drops_foldl_release_orphans held).trans (ih _)

theorem drops_reclaim (a : Arena ο) (held : List Value) :
    Relation.ReflTransGen Drops a (a.reclaim held).2 :=
  drops_reclaimRounds held a.liveCount a

theorem turnovers_reclaim (a : Arena ο) (held : List Value) : Turnovers a (a.reclaim held).2 :=
  (a.drops_reclaim held).lift (fun b => b) fun _ _ h => Drops.turnover h

theorem turnovers_pushFunction (a : Arena ο) (parent : ScopeId) :
    Turnovers a ((pushFunction parent).on a).2 := by
  rw [on_pushFunction]
  split
  · exact .single (.make (by simp) _)
  · exact .refl

theorem turnovers_popFunction (a : Arena ο) (id : ScopeId) :
    Turnovers a ((popFunction id).on a).2 := by
  rw [on_popFunction]
  split
  · rename_i s live
    split
    · rename_i function
      exact .single (.release live (by simp [function]))
    · exact .refl
  · exact .refl

theorem turnovers_newObject (a : Arena ο) (held : List Value) (parent : Option ScopeId) :
    Turnovers a ((newObject held parent).on a).2 := by
  rw [on_newObject]
  split
  · exact (a.turnovers_reclaim held).tail (.make (by simp) _)
  · exact .refl

theorem turnovers_observe (a : Arena ο) (id : ScopeId) (observer : ο) :
    Turnovers a ((observe id observer).on a).2 := by
  rw [on_observe]
  split
  · rename_i s live
    split
    · exact .single (.observe live _)
    · exact .refl
  · exact .refl

@[simp] theorem free_put (a : Arena ο) (id : ScopeId) (s : Scope ο) :
    (a.put id s).free = a.free := rfl

@[simp] theorem clock_put (a : Arena ο) (id : ScopeId) (s : Scope ο) :
    (a.put id s).clock = a.clock := rfl

@[simp] theorem clock_release (a : Arena ο) (i : Nat) : (a.release i).clock = a.clock := rfl

@[simp] theorem clock_allocate (a : Arena ο) (s : Scope ο) :
    (a.allocate s).2.clock = a.clock + 1 := by
  unfold allocate
  split <;> rfl

@[simp] theorem journal_allocate (a : Arena ο) (s : Scope ο) :
    (a.allocate s).2.journal = a.journal := by
  unfold allocate
  split <;> rfl

@[simp] theorem slots_beginArgument (a : Arena ο) (index : Nat) :
    (a.beginArgument index).slots = a.slots := by
  unfold beginArgument
  split <;> rfl

@[simp] theorem clock_beginArgument (a : Arena ο) (index : Nat) :
    (a.beginArgument index).clock = a.clock := by
  unfold beginArgument
  split <;> rfl

@[simp] theorem policy_beginArgument (a : Arena ο) (index : Nat) :
    (a.beginArgument index).policy = a.policy := by
  unfold beginArgument
  split <;> rfl

/-- The lists stay what they are, but for the current argument of the innermost one. -/
theorem exists_of_mem_beginArgument {a : Arena ο} {index : Nat} {frame : Frame}
    (h : frame ∈ (a.beginArgument index).journal) :
    ∃ old ∈ a.journal, frame.opened = old.opened ∧ frame.touched = old.touched := by
  cases hj : a.journal with
  | nil => simp [beginArgument, hj] at h
  | cons first outer =>
    simp only [beginArgument, hj, List.mem_cons] at h
    obtain rfl | h := h
    · exact ⟨first, by simp, rfl, rfl⟩
    · exact ⟨frame, by simp [h], rfl, rfl⟩

theorem getElem?_slots_put (a : Arena ο) (id : ScopeId) (s : Scope ο) (i : Nat) :
    (a.put id s).slots[i]? =
      if id.index = i then (a.slots[i]?).map fun slot => { slot with scope := some s }
      else a.slots[i]? :=
  Array.getElem?_modify

theorem getElem?_slots_release (a : Arena ο) (j i : Nat) :
    (a.release j).slots[i]? =
      if j = i then (a.slots[i]?).map fun slot => { generation := slot.generation + 1, scope := none }
      else a.slots[i]? :=
  Array.getElem?_modify

end Arena

/-- How many scopes the slot has had, as far as its generation can tell. -/
def Slot.tenants {ο : Type} (slot : Slot ο) : Nat :=
  slot.generation.toNat + if slot.scope.isSome then 1 else 0

namespace Arena

variable {ο : Type}

/-- The free list names the empty slots, each once; no scope and no open list is younger than the
clock; the global scope is there, and no other scope is one; and there are no more slots, and no
slot has had more scopes, than scopes have been made. -/
structure WellFormed (a : Arena ο) : Prop where
  free_iff : ∀ i : Nat, i ∈ a.free ↔ ∃ generation, a.slots[i]? = some ⟨generation, none⟩
  free_nodup : a.free.Nodup
  created_le : ∀ id s, a.scope? id = some s → s.created ≤ a.clock
  opened_le : ∀ frame ∈ a.journal, frame.opened ≤ a.clock
  global_live : ∃ s, a.scope? global = some s ∧ s.kind = .global ∧ s.created = 0
  global_unique : ∀ id s, a.scope? id = some s → s.kind = .global → id = global
  tenants_le : ∀ (i : Nat) (slot : Slot ο), a.slots[i]? = some slot → slot.tenants ≤ a.clock + 1
  size_le : a.slots.size ≤ a.clock + 1

theorem wellFormed_ofGlobals (policy : AssignmentPolicy) (bindings : List (String × Value)) :
    (ofGlobals policy bindings : Arena ο).WellFormed where
  free_iff i := by
    cases i <;> simp [ofGlobals]
  free_nodup := by simp [ofGlobals]
  created_le id s live := by
    rw [scope?_eq_some_iff] at live
    obtain ⟨index, generation⟩ := id
    cases index with
    | zero =>
      simp [ofGlobals] at live
      simp [← live.2]
    | succ index => simp [ofGlobals] at live
  opened_le := by simp [ofGlobals]
  global_live := ⟨_, by rw [scope?_eq_some_iff]; rfl, rfl, rfl⟩
  global_unique id s live _ := by
    rw [scope?_eq_some_iff] at live
    obtain ⟨index, generation⟩ := id
    cases index with
    | zero =>
      simp [ofGlobals] at live
      simp [global, live.1]
    | succ index => simp [ofGlobals] at live
  tenants_le i slot found := by
    cases i with
    | zero =>
      simp [ofGlobals] at found
      simp [← found, Slot.tenants]
    | succ i => simp [ofGlobals] at found
  size_le := by simp [ofGlobals]

theorem WellFormed.index_not_mem_free {a : Arena ο} (h : a.WellFormed) {id : ScopeId} {s : Scope ο}
    (live : a.scope? id = some s) : id.index ∉ a.free := by
  intro hfree
  obtain ⟨generation, found⟩ := (h.free_iff id.index).1 hfree
  rw [scope?_eq_some_iff, found] at live
  simp at live

/-- A scope may be exchanged for another one of the same kind and age. -/
theorem WellFormed.put {a : Arena ο} (h : a.WellFormed) {id : ScopeId} {s t : Scope ο}
    (live : a.scope? id = some s) (kind : t.kind = s.kind) (created : t.created = s.created) :
    (a.put id t).WellFormed := by
  have hput := fun other => a.scope?_put id other t ((a.isLive_iff id).2 ⟨s, live⟩)
  have slot := (a.scope?_eq_some_iff id s).1 live
  constructor
  · intro i
    rw [getElem?_slots_put]
    split
    · rename_i same
      subst same
      have hfree := h.index_not_mem_free live
      simpa [slot] using hfree
    · exact h.free_iff i
  · exact h.free_nodup
  · intro other u there
    rw [hput] at there
    split at there
    · cases there
      exact created ▸ h.created_le id s live
    · exact h.created_le other u there
  · exact h.opened_le
  · obtain ⟨g, hg, hk, hc⟩ := h.global_live
    rw [hput]
    split
    · rename_i same
      subst same
      rw [live] at hg
      cases hg
      exact ⟨t, rfl, kind.trans hk, created.trans hc⟩
    · exact ⟨g, hg, hk, hc⟩
  · intro other u there hk
    rw [hput] at there
    split at there
    · rename_i same
      cases there
      exact same ▸ h.global_unique id s live (kind ▸ hk)
    · exact h.global_unique other u there hk
  · intro i v found
    rw [getElem?_slots_put] at found
    split at found
    · rename_i same
      subst same
      have hs := h.tenants_le _ _ slot
      simp only [slot, Option.map_some, Option.some.injEq] at found
      simpa [← found, Slot.tenants] using hs
    · exact h.tenants_le i v found
  · simpa [Arena.put] using h.size_le

theorem WellFormed.withJournal {a : Arena ο} (h : a.WellFormed) {journal : List Frame}
    (hj : ∀ frame ∈ journal, frame.opened ≤ a.clock) :
    WellFormed { a with journal := journal } :=
  { h with opened_le := hj }

/-- A write changes no list's time. -/
theorem opened_noteWrite (a : Arena ο) (created : Nat) (id : ScopeId) (name : String)
    (journal : List Frame) :
    (a.noteWrite created id name journal).1.map (·.opened) = journal.map (·.opened) := by
  induction journal with
  | nil => rfl
  | cons frame outer ih =>
    rw [fst_noteWrite_cons, List.map_cons, List.map_cons, ih]
    split <;> rfl

theorem WellFormed.written {a : Arena ο} (h : a.WellFormed) {id : ScopeId} {s : Scope ο}
    (live : a.scope? id = some s) (name : String) (value : Value) :
    (a.written id s name value).WellFormed := by
  apply (h.put live (t := { s with bindings := s.bindings.insert name value }) rfl rfl).withJournal
  intro frame hf
  have hm : frame.opened ∈ a.journal.map (·.opened) := by
    rw [← a.opened_noteWrite s.created id name a.journal]
    exact List.mem_map_of_mem hf
  obtain ⟨old, hold, same⟩ := List.mem_map.1 hm
  exact same ▸ h.opened_le old hold

theorem WellFormed.release {a : Arena ο} (h : a.WellFormed) {id : ScopeId} {s : Scope ο}
    (live : a.scope? id = some s) (hk : s.kind ≠ .global) : (a.release id.index).WellFormed := by
  have slot := (a.scope?_eq_some_iff id s).1 live
  have hfree := h.index_not_mem_free live
  have survives : ∀ other t, (a.release id.index).scope? other = some t →
      a.scope? other = some t := by
    intro other t there
    rw [scope?_release] at there
    split at there
    · cases there
    · exact there
  constructor
  · intro i
    rw [getElem?_slots_release]
    split
    · rename_i same
      subst same
      simp [Arena.release, slot]
    · rename_i different
      rw [← h.free_iff i]
      simp [Arena.release, Ne.symm different]
  · exact List.nodup_cons.2 ⟨hfree, h.free_nodup⟩
  · intro other t there
    exact h.created_le other t (survives other t there)
  · exact h.opened_le
  · obtain ⟨g, hg, hgk, hgc⟩ := h.global_live
    refine ⟨g, ?_, hgk, hgc⟩
    have different : global.index ≠ id.index := by
      intro same
      have also := (a.scope?_eq_some_iff _ _).1 hg
      rw [same, slot] at also
      simp only [Option.some.injEq, Slot.mk.injEq] at also
      exact hk (also.2 ▸ hgk)
    rw [scope?_release, if_neg different, hg]
  · intro other t there
    exact h.global_unique other t (survives other t there)
  · intro i v found
    rw [getElem?_slots_release] at found
    split at found
    · rename_i same
      subst same
      have hs := h.tenants_le _ _ slot
      simp only [slot, Option.map_some, Option.some.injEq] at found
      simp only [Slot.tenants, Option.isSome_some, if_true] at hs
      have hle : (id.generation + 1).toNat ≤ id.generation.toNat + 1 := by
        rw [UInt32.toNat_add]
        exact Nat.mod_le _ _
      simp only [← found, Slot.tenants, Option.isSome_none, Bool.false_eq_true, if_false]
      simp only [Arena.release]
      omega
    · exact h.tenants_le i v found
  · simpa [Arena.release] using h.size_le

/-- A new scope takes a slot that is free or comes after the others. -/
theorem WellFormed.getElem?_fst_allocate {a : Arena ο} (h : a.WellFormed) (s : Scope ο) :
    a.slots[(a.allocate s).1.index]? = some ⟨(a.allocate s).1.generation, none⟩ ∨
      (a.slots[(a.allocate s).1.index]? = none ∧ (a.allocate s).1.generation = 0) := by
  cases hf : a.free with
  | cons i rest =>
    obtain ⟨generation, found⟩ := (h.free_iff i).1 (by simp [hf])
    left
    simp [Arena.allocate, hf, found]
  | nil =>
    right
    simp [Arena.allocate, hf]

/-- The slot of a new scope holds it, and the other slots stay as they are. -/
theorem WellFormed.getElem?_slots_allocate {a : Arena ο} (h : a.WellFormed) (s : Scope ο) (i : Nat) :
    (a.allocate s).2.slots[i]? =
      if i = (a.allocate s).1.index then
        some ⟨(a.allocate s).1.generation, some { s with created := a.clock + 1 }⟩
      else a.slots[i]? := by
  cases hf : a.free with
  | cons j rest =>
    obtain ⟨generation, found⟩ := (h.free_iff j).1 (by simp [hf])
    simp only [Arena.allocate, hf, Array.getElem?_modify, eq_comm (a := i)]
    split
    · rename_i same
      subst same
      simp [found]
    · rfl
  | nil => simp [Arena.allocate, hf, Array.getElem?_push]

/-- The handle of a new scope means nothing before. -/
theorem WellFormed.scope?_fst_allocate {a : Arena ο} (h : a.WellFormed) (s : Scope ο) :
    a.scope? (a.allocate s).1 = none := by
  unfold scope?
  obtain found | ⟨found, _⟩ := h.getElem?_fst_allocate s
  · simp [found]
  · simp [found]

/-- A new scope is found under its handle, and the others are found as before. -/
theorem WellFormed.scope?_allocate {a : Arena ο} (h : a.WellFormed) (s : Scope ο) (id : ScopeId) :
    (a.allocate s).2.scope? id =
      if id = (a.allocate s).1 then some { s with created := a.clock + 1 } else a.scope? id := by
  split
  · rename_i same
    subst same
    rw [scope?_eq_some_iff, h.getElem?_slots_allocate, if_pos rfl]
  · rename_i different
    by_cases hi : id.index = (a.allocate s).1.index
    · have hg : (a.allocate s).1.generation ≠ id.generation := by
        intro same
        exact different (ScopeId.eq_of_index_of_generation hi same.symm)
      have before : a.scope? id = none := by
        unfold scope?
        obtain found | ⟨found, _⟩ := h.getElem?_fst_allocate s
        · simp [hi, found]
        · simp [hi, found]
      rw [before]
      unfold scope?
      rw [h.getElem?_slots_allocate, if_pos hi]
      simp [hg]
    · exact scope?_allocate_of_index_ne a s id hi

theorem WellFormed.allocate {a : Arena ο} (h : a.WellFormed) (s : Scope ο)
    (hk : s.kind ≠ .global) : (a.allocate s).2.WellFormed := by
  have other : ∀ id t, (a.allocate s).2.scope? id = some t →
      t = { s with created := a.clock + 1 } ∨ a.scope? id = some t := by
    intro id t there
    rw [h.scope?_allocate] at there
    split at there
    · exact .inl (Option.some.inj there).symm
    · exact .inr there
  have free : (a.allocate s).2.free = a.free.erase (a.allocate s).1.index := by
    cases hf : a.free with
    | cons i rest => simp [Arena.allocate, hf]
    | nil => simp [Arena.allocate, hf]
  constructor
  · intro i
    rw [free, h.free_nodup.mem_erase_iff, h.getElem?_slots_allocate, h.free_iff]
    split
    · rename_i same
      simp [same]
    · rename_i different
      simp [different]
  · rw [free]
    exact h.free_nodup.erase _
  · intro id t there
    rw [clock_allocate]
    obtain rfl | there := other id t there
    · exact Nat.le_refl _
    · have := h.created_le id t there
      omega
  · intro frame hf
    rw [journal_allocate] at hf
    rw [clock_allocate]
    have := h.opened_le frame hf
    omega
  · obtain ⟨g, hg, hgk, hgc⟩ := h.global_live
    refine ⟨g, ?_, hgk, hgc⟩
    have hne : global ≠ (a.allocate s).1 := by
      intro same
      rw [same, h.scope?_fst_allocate] at hg
      cases hg
    rw [h.scope?_allocate, if_neg hne, hg]
  · intro id t there hkt
    obtain rfl | there := other id t there
    · exact absurd hkt hk
    · exact h.global_unique id t there hkt
  · intro i slot found
    rw [h.getElem?_slots_allocate] at found
    rw [clock_allocate]
    split at found
    · rename_i same
      subst same
      simp only [Option.some.injEq] at found
      simp only [← found, Slot.tenants, Option.isSome_some, if_true]
      obtain old | ⟨_, hg⟩ := h.getElem?_fst_allocate s
      · have := h.tenants_le _ _ old
        simp only [Slot.tenants, Option.isSome_none, Bool.false_eq_true, if_false] at this
        omega
      · simp [hg]
    · have := h.tenants_le i slot found
      omega
  · have hsize := h.size_le
    rw [clock_allocate]
    cases hf : a.free with
    | cons i rest =>
      simp only [Arena.allocate, hf, Array.size_modify]
      omega
    | nil =>
      simp only [Arena.allocate, hf, Array.size_push]
      omega

theorem WellFormed.openArguments {a : Arena ο} (h : a.WellFormed) :
    a.openArguments.WellFormed := by
  apply h.withJournal
  intro frame hf
  obtain rfl | hf := List.mem_cons.1 hf
  · exact Nat.le_refl _
  · exact h.opened_le frame hf

theorem WellFormed.beginArgument {a : Arena ο} (h : a.WellFormed) (index : Nat) :
    (a.beginArgument index).WellFormed := by
  cases hj : a.journal with
  | nil => simpa [Arena.beginArgument, hj] using h
  | cons frame outer =>
    simp only [Arena.beginArgument, hj]
    apply h.withJournal
    intro other ho
    obtain rfl | ho := List.mem_cons.1 ho
    · exact h.opened_le frame (by simp [hj])
    · exact h.opened_le other (by simp [hj, ho])

theorem WellFormed.closeArguments {a : Arena ο} (h : a.WellFormed) :
    a.closeArguments.WellFormed := by
  apply h.withJournal
  intro frame hf
  exact h.opened_le frame (List.mem_of_mem_tail hf)

theorem Turnover.wellFormed {a b : Arena ο} (h : Turnover a b) (wf : a.WellFormed) :
    b.WellFormed := by
  cases h with
  | observe live observers => exact wf.put live rfl rfl
  | release live hk => exact wf.release live hk
  | make hk parent => exact wf.allocate _ hk
  | policy policy => exact { wf with }

theorem Turnovers.wellFormed {a b : Arena ο} (h : Turnovers a b) (wf : a.WellFormed) :
    b.WellFormed := by
  induction h with
  | refl => exact wf
  | tail _ step ih => exact step.wellFormed ih

/-- Every change keeps an arena well formed. -/
theorem Change.wellFormed {a b : Arena ο} (h : Change a b) (wf : a.WellFormed) : b.WellFormed := by
  cases h with
  | write live name value => exact wf.written live name value
  | turnover h => exact h.wellFormed wf
  | openArguments => exact wf.openArguments
  | beginArgument index => exact wf.beginArgument index
  | closeArguments => exact wf.closeArguments

/-- How a scope of the second arena stands to the first: it was there, with the same bindings, or it
is new and has none. -/
def Inherits (a : Arena ο) (id : ScopeId) (t : Scope ο) : Prop :=
  (∃ s, a.scope? id = some s ∧ t = { s with observers := t.observers }) ∨
    (a.clock < t.created ∧ t.bindings = {})

theorem Turnover.inherits {a b : Arena ο} (h : Turnover a b) (wf : a.WellFormed) {id : ScopeId}
    {t : Scope ο} (there : b.scope? id = some t) : a.Inherits id t := by
  cases h with
  | observe live observers =>
    rw [scope?_put _ _ _ _ ((isLive_iff _ _).2 ⟨_, live⟩)] at there
    split at there
    · rename_i same
      cases there
      exact .inl ⟨_, same ▸ live, rfl⟩
    · exact .inl ⟨t, there, rfl⟩
  | release live hk =>
    rw [scope?_release] at there
    split at there
    · cases there
    · exact .inl ⟨t, there, rfl⟩
  | make hk parent =>
    rw [wf.scope?_allocate] at there
    split at there
    · cases there
      exact .inr ⟨Nat.lt_succ_self _, rfl⟩
    · exact .inl ⟨t, there, rfl⟩
  | policy policy => exact .inl ⟨t, there, rfl⟩

theorem Turnover.clock_le {a b : Arena ο} (h : Turnover a b) : a.clock ≤ b.clock := by
  cases h with
  | make hk parent => simp
  | _ => exact Nat.le_refl _

theorem Turnover.journal_eq {a b : Arena ο} (h : Turnover a b) : b.journal = a.journal := by
  cases h with
  | make hk parent => simp
  | _ => rfl

theorem Turnovers.clock_le {a b : Arena ο} (h : Turnovers a b) : a.clock ≤ b.clock := by
  induction h with
  | refl => exact Nat.le_refl _
  | tail _ step ih => exact Nat.le_trans ih step.clock_le

theorem Turnovers.journal_eq {a b : Arena ο} (h : Turnovers a b) : b.journal = a.journal := by
  induction h with
  | refl => rfl
  | tail _ step ih => exact step.journal_eq.trans ih

/-- Changes of scopes change no binding. -/
theorem Turnovers.inherits {a b : Arena ο} (h : Turnovers a b) (wf : a.WellFormed) {id : ScopeId}
    {t : Scope ο} (there : b.scope? id = some t) : a.Inherits id t := by
  induction h generalizing t with
  | refl => exact .inl ⟨t, there, rfl⟩
  | tail before step ih =>
    obtain ⟨u, here, same⟩ | ⟨new, empty⟩ :=
      step.inherits (Turnovers.wellFormed before wf) there
    · obtain ⟨s, first, equal⟩ | ⟨new, empty⟩ := ih here
      · exact .inl ⟨s, first, by rw [same, equal]⟩
      · rw [same]
        exact .inr ⟨new, empty⟩
    · exact .inr ⟨Nat.lt_of_le_of_lt (Turnovers.clock_le before) new, empty⟩

theorem Changes.wellFormed {a b : Arena ο} (h : Changes a b) (wf : a.WellFormed) :
    b.WellFormed := by
  induction h with
  | refl => exact wf
  | tail _ step ih => exact step.wellFormed ih

/-- The handle was given to a scope made at this time, which is live or gone for good. -/
def Issued (a : Arena ο) (id : ScopeId) (created : Nat) : Prop :=
  ∃ slot : Slot ο, a.slots[id.index]? = some slot ∧
    (id.generation.toNat < slot.generation.toNat ∨
      id.generation = slot.generation ∧ ∃ s, slot.scope = some s ∧ s.created = created)

theorem issued_of_live {a : Arena ο} {id : ScopeId} {s : Scope ο} (live : a.scope? id = some s) :
    a.Issued id s.created :=
  ⟨_, (a.scope?_eq_some_iff id s).1 live, .inr ⟨rfl, s, rfl, rfl⟩⟩

/-- A handle that was given to a scope is to no other one. -/
theorem Issued.created_eq {a : Arena ο} {id : ScopeId} {created : Nat} (h : a.Issued id created)
    {s : Scope ο} (live : a.scope? id = some s) : s.created = created := by
  obtain ⟨slot, found, past | ⟨_, t, here, same⟩⟩ := h
  · rw [scope?_eq_some_iff, found] at live
    cases live
    exact absurd past (Nat.lt_irrefl _)
  · rw [scope?_eq_some_iff, found] at live
    cases live
    cases here
    exact same

theorem Issued.put {a : Arena ο} {id other : ScopeId} {created : Nat} {s t : Scope ο}
    (h : a.Issued id created) (live : a.scope? other = some s) (hc : t.created = s.created) :
    (a.put other t).Issued id created := by
  obtain ⟨slot, found, h⟩ := h
  by_cases hi : other.index = id.index
  · refine ⟨{ slot with scope := some t }, by rw [getElem?_slots_put, if_pos hi, found]; rfl, ?_⟩
    obtain past | ⟨hg, u, here, same⟩ := h
    · exact .inl past
    · rw [scope?_eq_some_iff, hi, found] at live
      cases live
      cases here
      exact .inr ⟨hg, t, rfl, hc.trans same⟩
  · exact ⟨slot, by rw [getElem?_slots_put, if_neg hi, found], h⟩

/-- Generations have 32 bits. Until so many scopes have been made that one could come round, a
handle that was given to a scope is given to no other. -/
theorem Turnover.issued {a b : Arena ο} (step : Turnover a b) (wf : a.WellFormed)
    (few : b.clock + 1 < 2 ^ 32) {id : ScopeId} {created : Nat} (h : a.Issued id created) :
    b.Issued id created := by
  cases step with
  | observe live observers => exact h.put live rfl
  | @release other s live hk =>
    obtain ⟨slot, found, h⟩ := h
    by_cases hi : other.index = id.index
    · refine ⟨⟨slot.generation + 1, none⟩, ?_, .inl ?_⟩
      · rw [getElem?_slots_release, if_pos hi, found]
        rfl
      · have here := (a.scope?_eq_some_iff other s).1 live
        have hle := wf.tenants_le _ _ here
        rw [hi, found] at here
        cases here
        simp only [Slot.tenants, Option.isSome_some, if_true] at hle
        simp only [clock_release] at few
        have hsucc : (other.generation + 1).toNat = other.generation.toNat + 1 := by
          rw [UInt32.toNat_add]
          exact Nat.mod_eq_of_lt (by simp; omega)
        rw [hsucc]
        obtain past | ⟨hg, _⟩ := h
        · exact Nat.lt_succ_of_lt past
        · rw [hg]
          exact Nat.lt_succ_self _
    · exact ⟨slot, by rw [getElem?_slots_release, if_neg hi, found], h⟩
  | @make kind hk parent =>
    obtain ⟨slot, found, h⟩ := h
    by_cases hi : id.index = (a.allocate (blank kind parent)).1.index
    · obtain empty | ⟨missing, _⟩ := wf.getElem?_fst_allocate (blank kind parent)
      · rw [← hi, found] at empty
        cases empty
        obtain past | ⟨_, _, here, _⟩ := h
        · exact ⟨_, (wf.getElem?_slots_allocate _ _).trans (if_pos hi), .inl past⟩
        · cases here
      · rw [← hi, found] at missing
        cases missing
    · exact ⟨slot, by rw [wf.getElem?_slots_allocate, if_neg hi, found], h⟩
  | policy policy => exact h

end Arena

namespace Operation

variable {ο α : Type}

open Arena

theorem snd_on_forget (action : ArenaM ο α) (a : Arena ο) :
    ((do let _ ← action; return [] : ArenaM ο (List ο)).on a).2 = (action.on a).2 := by
  rw [ArenaM.on_bind]
  split <;> simp_all

/-- What becomes of an arena. A write is one change; whatever else has nothing to do with argument
lists changes scopes alone. -/
def Effect (a b : Arena ο) (handlesLists : Bool) : Option Write → Prop
  | some w => ∃ s, a.scope? w.place.scope = some s ∧ w.created = s.created ∧
      b = a.written w.place.scope s w.place.name w.value
  | none => handlesLists = false → Turnovers a b

/-- A definition in a live scope is a write, and one in any other scope changes nothing. -/
theorem effect_define (a : Arena ο) (scope : ScopeId) (name : String) (value : Value) :
    Effect a ((Arena.define scope name value).on a).2 false (landing? a scope name value) := by
  rw [Arena.on_define]
  cases live : a.scope? scope with
  | none =>
    simp only [landing?, live, Option.map_none]
    exact fun _ => .refl
  | some s =>
    simp only [landing?, live, Option.map_some]
    exact ⟨s, live, rfl, rfl⟩

theorem effect_after (op : Operation ο) (a : Arena ο) :
    Effect a (op.after a) op.handlesLists (op.write? a) := by
  cases op with
  | define scope name value => exact effect_define a scope name value
  | assign scope name value =>
    simp only [write?, after, perform, on_assign]
    cases a.resolve? scope name with
    | some owner => exact effect_define a owner name value
    | none =>
      cases a.policy with
      | strict => exact fun _ => .refl
      | defineLocal => exact effect_define a scope name value
  | observe scope observer =>
    intro _
    simp only [after, perform, snd_on_forget]
    exact a.turnovers_observe scope observer
  | setPolicy policy => exact fun _ => .single (.policy policy)
  | pushFunction parent =>
    intro _
    simp only [after, perform, snd_on_forget]
    exact a.turnovers_pushFunction parent
  | popFunction scope =>
    intro _
    simp only [after, perform, snd_on_forget]
    exact a.turnovers_popFunction scope
  | newObject held parent =>
    intro _
    simp only [after, perform, snd_on_forget]
    exact a.turnovers_newObject held parent
  | reclaim held => exact fun _ => a.turnovers_reclaim held
  | openArguments => exact fun h => by cases h
  | beginArgument index => exact fun h => by cases h
  | closeArguments => exact fun h => by cases h

/-- An operation is a sequence of changes. -/
theorem changes (op : Operation ο) (a : Arena ο) : Changes a (op.after a) := by
  have h := op.effect_after a
  cases hw : op.write? a with
  | some w =>
    rw [hw] at h
    obtain ⟨s, live, _, equal⟩ := h
    exact equal ▸ .single (.write live _ _)
  | none =>
    rw [hw] at h
    cases op with
    | openArguments => exact .single .openArguments
    | beginArgument index => exact .single (.beginArgument index)
    | closeArguments => exact .single .closeArguments
    | _ => exact (h rfl).changes

end Operation

namespace Arena

variable {ο : Type}

/-- The arenas that operations lead to, from one that has a global scope only. -/
inductive Reachable : Arena ο → Prop where
  | ofGlobals (policy : AssignmentPolicy) (bindings : List (String × Value)) :
      Reachable (ofGlobals policy bindings)
  | after {a : Arena ο} (h : Reachable a) (op : Operation ο) : Reachable (op.after a)

theorem Reachable.wellFormed {a : Arena ο} (h : a.Reachable) : a.WellFormed := by
  induction h with
  | ofGlobals policy bindings => exact wellFormed_ofGlobals policy bindings
  | after _ op ih => exact (op.changes _).wellFormed ih

end Arena

end Fluent

import Fluent.Arena
import Fluent.Value.Handles

/-!
# What keeps objects

An object is kept by the handles to it: those in values that are held outside the arena, those in
the bindings of scopes, and those in the prior values of the journal. Here all of them are walked
at once, and the objects that nothing keeps are found. Main statement: `mem_orphans`, which says
so in terms of the values alone.
-/
namespace Fluent.Arena

variable {ο : Type}

/-- The values that the arena itself holds: those bound in its scopes, and the prior values of the
journal. -/
def heldValues (a : Arena ο) : List Value :=
  (a.slots.toList.flatMap fun slot => slot.scope.toList.flatMap (·.bindings.values))
    ++ a.journal.flatMap fun frame => frame.touched.values.filterMap (·.prior)

/-- Walks the values bound in the scopes of slots. -/
def tallySlots : List (Slot ο) → Value.Tally → Value.Tally
  | [], t => t
  | ⟨_, none⟩ :: rest, t => tallySlots rest t
  | ⟨_, some s⟩ :: rest, t => tallySlots rest (Value.tallyEntries s.bindings.entries t)

/-- Walks the prior values of open argument lists. -/
def tallyFrames : List Frame → Value.Tally → Value.Tally
  | [], t => t
  | frame :: outer, t =>
    tallyFrames outer (Value.tallyItems (frame.touched.values.filterMap (·.prior)) t)

/-- The handles that these values and the arena hold. -/
def handles (a : Arena ο) (held : List Value) : List ScopeId :=
  (tallyFrames a.journal (tallySlots a.slots.toList (Value.tallyItems held {}))).handles

/-- For each slot, whether one of the handles is to the scope that the slot has now. -/
def supported (a : Arena ο) (handles : List ScopeId) : Array Bool :=
  handles.foldl
    (fun marks id => if a.isLive id then marks.setIfInBounds id.index true else marks)
    (Array.replicate a.slots.size false)

/-- The slot has an object. -/
def hasObject (a : Arena ο) (index : Nat) : Bool :=
  match a.slots[index]? with
  | some ⟨_, some s⟩ => s.kind = .object
  | _ => false

/-- The slots of the objects to which neither these values nor the arena hold a handle. -/
def orphans (a : Arena ο) (held : List Value) : List Nat :=
  let supported := a.supported (a.handles held)
  (List.range a.slots.size).filter fun index =>
    a.hasObject index && !supported[index]?.getD false

theorem adds_tallySlots (slots : List (Slot ο)) {t : Value.Tally} (h : t.IsComplete) :
    Value.Tally.Adds
      ((slots.flatMap fun slot => slot.scope.toList.flatMap (·.bindings.values)).flatMap
        Value.objects)
      t (tallySlots slots t) := by
  induction slots generalizing t with
  | nil => exact .refl h
  | cons slot rest ih =>
    obtain ⟨_, _ | s⟩ := slot
    · simpa [tallySlots] using ih h
    · have first := Value.adds_tallyEntries s.bindings.entries h
      have second := first.trans (ih first.1)
      simpa [tallySlots, Table.values, List.flatMap_map] using second

theorem adds_tallyFrames (journal : List Frame) {t : Value.Tally} (h : t.IsComplete) :
    Value.Tally.Adds
      ((journal.flatMap fun frame => frame.touched.values.filterMap (·.prior)).flatMap
        Value.objects)
      t (tallyFrames journal t) := by
  induction journal generalizing t with
  | nil => exact .refl h
  | cons frame outer ih =>
    have first := Value.adds_tallyItems (frame.touched.values.filterMap (·.prior)) h
    have second := first.trans (ih first.1)
    simpa [tallyFrames] using second

/-- The objects whose handles are held are those to which one of the values has a handle. -/
theorem mem_handles (a : Arena ο) (held : List Value) (id : ScopeId) :
    id ∈ a.handles held ↔ ∃ v ∈ held ++ a.heldValues, id ∈ v.objects := by
  have first := Value.adds_tallyItems held Value.Tally.isComplete_empty
  have second := adds_tallySlots a.slots.toList first.1
  have third := adds_tallyFrames a.journal second.1
  have all := ((first.trans second).trans third).2 id
  simp only [handles, heldValues, all]
  simp [or_and_right, exists_or]

theorem index_lt_of_isLive {a : Arena ο} {id : ScopeId} (live : a.isLive id = true) :
    id.index < a.slots.size := by
  obtain ⟨s, here⟩ := (a.isLive_iff id).1 live
  rw [scope?_eq_some_iff] at here
  exact (Array.getElem?_eq_some_iff.1 here).1

/-- A slot is marked exactly if a live handle to it is among the handles. -/
theorem supported_iff (a : Arena ο) (handles : List ScopeId) (index : Nat) :
    (a.supported handles)[index]?.getD false = true ↔
      ∃ id ∈ handles, a.isLive id = true ∧ id.index = index := by
  have marked (marks : Array Bool) (size : marks.size = a.slots.size) :
      (handles.foldl
          (fun marks id => if a.isLive id then marks.setIfInBounds id.index true else marks)
          marks)[index]?.getD false = true ↔
        marks[index]?.getD false = true ∨
          ∃ id ∈ handles, a.isLive id = true ∧ id.index = index := by
    induction handles generalizing marks with
    | nil => simp
    | cons id rest ih =>
      rw [List.foldl_cons]
      by_cases live : a.isLive id = true
      · have bound : id.index < marks.size := size ▸ index_lt_of_isLive live
        rw [if_pos live, ih _ (by simpa using size), Array.getElem?_setIfInBounds]
        by_cases here : id.index = index
        · subst here
          simp [live, bound]
        · simp [here, live]
      · rw [if_neg live, ih _ size]
        simp [live]
  rw [supported, marked _ (by simp)]
  simp [Array.getElem?_replicate]
  split <;> simp

theorem hasObject_iff (a : Arena ο) (index : Nat) :
    a.hasObject index = true ↔ ∃ generation s, a.slots[index]? = some ⟨generation, some s⟩ ∧
      s.kind = .object := by
  unfold hasObject
  split
  · rename_i generation s found
    constructor
    · intro h
      exact ⟨generation, s, found, of_decide_eq_true h⟩
    · rintro ⟨_, _, same, h⟩
      rw [found] at same
      cases same
      exact decide_eq_true h
  · rename_i other
    constructor
    · intro h
      cases h
    · rintro ⟨generation, s, found, _⟩
      exact absurd found (other generation s)

/-- The orphans are the slots of the live objects whose handle stands in none of the values. -/
theorem mem_orphans (a : Arena ο) (held : List Value) (index : Nat) :
    index ∈ a.orphans held ↔
      ∃ id s, id.index = index ∧ a.scope? id = some s ∧ s.kind = .object ∧
        ∀ v ∈ held ++ a.heldValues, id ∉ v.objects := by
  simp only [orphans, List.mem_filter, List.mem_range, Bool.and_eq_true, hasObject_iff,
    Bool.not_eq_true', ← Bool.not_eq_true, supported_iff, mem_handles]
  constructor
  · rintro ⟨_, ⟨generation, s, found, kind⟩, free⟩
    refine ⟨⟨index, generation⟩, s, rfl, (a.scope?_eq_some_iff _ _).2 found, kind, ?_⟩
    intro v member handle
    refine free ⟨⟨index, generation⟩, ⟨v, member, handle⟩, ?_, rfl⟩
    exact (a.isLive_iff _).2 ⟨s, (a.scope?_eq_some_iff _ _).2 found⟩
  · rintro ⟨id, s, rfl, here, kind, free⟩
    have live : a.isLive id = true := (a.isLive_iff id).2 ⟨s, here⟩
    have found := (a.scope?_eq_some_iff id s).1 here
    refine ⟨index_lt_of_isLive live, ⟨id.generation, s, found, kind⟩, ?_⟩
    rintro ⟨other, ⟨v, member, handle⟩, otherLive, same⟩
    obtain ⟨t, there⟩ := (a.isLive_iff other).1 otherLive
    have also := (a.scope?_eq_some_iff other t).1 there
    rw [same, found] at also
    have equal : other = id := by
      cases other
      cases id
      simp_all
    exact free v member (equal ▸ handle)

end Fluent.Arena

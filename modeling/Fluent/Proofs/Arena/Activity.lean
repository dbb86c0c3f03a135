import Fluent.Proofs.Arena.Reachable

/-!
# What an evaluation does to an arena

An evaluation shuffles bindings, makes objects, calls functions in scopes of their own, and opens
argument lists and closes them again. `Activity` says so, and the properties of evaluations that are
about the arena alone are proved here by induction on activities.

Main statements: `Activity.activation?_eq`, the function scopes are the same afterwards;
`Activity.openLists_eq`, so are the open lists; `Activity.conserves`, and bindings are at most
rearranged.
-/
namespace Fluent

/-- The bindings hold the same value, or arrays of the same items in different orders. -/
def Value.Rearranged (v w : Option Value) : Prop :=
  v = w ∨ ∃ xs ys : List Value, v = some (.array xs) ∧ w = some (.array ys) ∧ xs.Perm ys

namespace Value.Rearranged

theorem refl (v : Option Value) : Rearranged v v :=
  .inl rfl

theorem trans {u v w : Option Value} (huv : Rearranged u v) (hvw : Rearranged v w) :
    Rearranged u w := by
  obtain rfl | ⟨xs, ys, hu, hv, perm⟩ := huv
  · exact hvw
  · obtain rfl | ⟨ys', zs, hv', hw, perm'⟩ := hvw
    · exact .inr ⟨xs, ys, hu, hv, perm⟩
    · rw [hv] at hv'
      cases hv'
      exact .inr ⟨xs, zs, hu, hw, perm.trans perm'⟩

end Value.Rearranged

/-- The scopes are of the same kind, inside the same scope and made at the same time. -/
structure Scope.Akin {ο : Type} (s t : Scope ο) : Prop where
  kind : t.kind = s.kind
  parent : t.parent = s.parent
  created : t.created = s.created

theorem Scope.Akin.refl {ο : Type} (s : Scope ο) : s.Akin s :=
  ⟨rfl, rfl, rfl⟩

theorem Scope.Akin.trans {ο : Type} {s t u : Scope ο} (hst : s.Akin t) (htu : t.Akin u) :
    s.Akin u :=
  ⟨htu.kind.trans hst.kind, htu.parent.trans hst.parent, htu.created.trans hst.created⟩

namespace Arena

open Value (Rearranged)

variable {ο : Type}

/-- A binding of the scope is written. -/
def Fill (id : ScopeId) (a b : Arena ο) : Prop :=
  ∃ s name value, a.scope? id = some s ∧ b = a.written id s name value

/-- Bindings of the scope are written one after the other. -/
abbrev Fills (id : ScopeId) : Arena ο → Arena ο → Prop :=
  Relation.ReflTransGen (Fill id)

/-- Bindings of the scope are written one after the other, with some of the values. -/
abbrev FillsWith (values : List Value) (id : ScopeId) : Arena ο → Arena ο → Prop :=
  Relation.ReflTransGen fun a b => ∃ s name, ∃ value ∈ values,
    a.scope? id = some s ∧ b = a.written id s name value

theorem FillsWith.fills {values : List Value} {id : ScopeId} {a b : Arena ο}
    (h : FillsWith values id a b) : Fills id a b := by
  refine h.lift (fun c => c) ?_
  rintro c d ⟨s, name, value, -, live, same⟩
  exact ⟨s, name, value, live, same⟩

theorem FillsWith.mono {values more : List Value} (sub : ∀ v ∈ values, v ∈ more) {id : ScopeId}
    {a b : Arena ο} (h : FillsWith values id a b) : FillsWith more id a b := by
  refine h.lift (fun c => c) ?_
  rintro c d ⟨s, name, value, mem, live, same⟩
  exact ⟨s, name, value, sub value mem, live, same⟩

/-- What an evaluation does to an arena, if it may make objects, or else without making any. The
flag says whether the arguments of the innermost open list may begin meanwhile, so an evaluation as
a whole is an activity without the flag. -/
inductive Activity (objects : Prop) : Bool → Arena ο → Arena ο → Prop where
  | idle {within : Bool} {a : Arena ο} : Activity objects within a a
  | trans {within : Bool} {a b c : Arena ο} (first : Activity objects within a b)
      (second : Activity objects within b c) : Activity objects within a c
  | shuffle {within : Bool} {a : Arena ο} {id : ScopeId} {s : Scope ο} {name : String} {value : Value}
      (live : a.scope? id = some s)
      (same : Rearranged (a.findLocal? id name) (some value)) :
      Activity objects within a (a.written id s name value)
  | object {within : Bool} {a b c : Arena ο} {id : ScopeId} (allowed : objects) (held : List Value)
      (made : (a.reclaim held).2.allocate (blank .object (some global)) = (id, b))
      (filled : Fills id b c) : Activity objects within a c
  | call {within : Bool} {a b c d : Arena ο} {parent frame : ScopeId}
      (live : a.isLive parent = true)
      (made : a.allocate (blank .function (some parent)) = (frame, b)) (bound : Fills frame b c)
      (body : Activity objects false c d) : Activity objects within a (d.release frame.index)
  | list {within : Bool} {a b : Arena ο} (arguments : Activity objects true a.openArguments b) :
      Activity objects within a b.closeArguments
  | begin {a : Arena ο} (index : Nat) : Activity objects true a (a.beginArgument index)

variable {objects : Prop}

/-- What is done apart from argument lists may be done while one is open. -/
theorem Activity.inList {a b : Arena ο} (h : Activity objects false a b) :
    Activity objects true a b := by
  generalize hw : false = within at h
  induction h with
  | idle => exact .idle
  | trans _ _ ih ih' => exact .trans (ih hw) (ih' hw)
  | shuffle live same => exact .shuffle live same
  | object allowed held made filled => exact .object allowed held made filled
  | call live made bound body => exact .call live made bound body
  | list arguments => exact .list arguments
  | begin index => cases hw

/-- The time at which the function scope of a live handle was made. -/
def activation? (a : Arena ο) (id : ScopeId) : Option Nat :=
  ((a.scope? id).filter fun s => s.kind = .function).map (·.created)

theorem activation?_eq_some_iff (a : Arena ο) (id : ScopeId) (created : Nat) :
    a.activation? id = some created ↔
      ∃ s, a.scope? id = some s ∧ s.kind = .function ∧ s.created = created := by
  simp [activation?, Option.filter_eq_some_iff, and_assoc]

theorem activation?_congr {a b : Arena ο} {id : ScopeId} (h : a.scope? id = b.scope? id) :
    a.activation? id = b.activation? id := by
  simp only [activation?, h]

/-- A write makes and releases no scope. -/
theorem activation?_written {a : Arena ο} {id : ScopeId} {s : Scope ο} (live : a.scope? id = some s)
    (name : String) (value : Value) (other : ScopeId) :
    (a.written id s name value).activation? other = a.activation? other := by
  unfold activation?
  rw [scope?_written live]
  split
  · rename_i same
    subst same
    rw [live]
    by_cases function : s.kind = .function <;> simp [Option.filter, function]
  · rfl

theorem Fills.activation?_eq {a b : Arena ο} {id : ScopeId} (h : Fills id a b) (other : ScopeId) :
    b.activation? other = a.activation? other := by
  induction h with
  | refl => rfl
  | tail _ fill ih =>
    obtain ⟨s, name, value, live, rfl⟩ := fill
    rw [activation?_written live, ih]

theorem activation?_release (a : Arena ο) (index : Nat) (id : ScopeId) :
    (a.release index).activation? id = if id.index = index then none else a.activation? id := by
  unfold activation?
  rw [scope?_release]
  split <;> rfl

/-- Only one handle to a slot is live. -/
theorem eq_of_index_eq {a : Arena ο} {id other : ScopeId} {s t : Scope ο}
    (here : a.scope? id = some s) (there : a.scope? other = some t) (h : id.index = other.index) :
    id = other := by
  rw [scope?_eq_some_iff] at here there
  rw [h, there] at here
  simp only [Option.some.injEq, Slot.mk.injEq] at here
  exact ScopeId.eq_of_index_of_generation h here.1.symm

/-- Where a live scope is released, every other handle means what it meant. -/
theorem scope?_release_of_ne {a : Arena ο} {frame id : ScopeId} {s : Scope ο}
    (live : a.scope? frame = some s) (h : id ≠ frame) :
    (a.release frame.index).scope? id = a.scope? id := by
  rw [scope?_release]
  split
  · rename_i slot
    cases here : a.scope? id with
    | none => rfl
    | some t => exact absurd (eq_of_index_eq here live slot) h
  · rfl

theorem Drops.activation?_eq {a b : Arena ο} (h : Drops a b) (id : ScopeId) :
    b.activation? id = a.activation? id := by
  obtain ⟨gone, s, live, object, rfl⟩ := h
  rw [activation?_release]
  split
  · rename_i same
    cases function : a.activation? id with
    | none => rfl
    | some created =>
      obtain ⟨t, there, kind, _⟩ := (a.activation?_eq_some_iff id created).1 function
      have equal := eq_of_index_eq there live same
      rw [equal, live] at there
      cases there
      rw [object] at kind
      cases kind
  · rfl

theorem activation?_reclaim (a : Arena ο) (held : List Value) (id : ScopeId) :
    (a.reclaim held).2.activation? id = a.activation? id := by
  have drops := a.drops_reclaim held
  generalize (a.reclaim held).2 = b at drops
  induction drops with
  | refl => rfl
  | tail _ drop ih => rw [drop.activation?_eq, ih]

/-- A new object is no function scope. -/
theorem WellFormed.activation?_object {a : Arena ο} (h : a.WellFormed) (parent : Option ScopeId)
    (id : ScopeId) :
    (a.allocate (blank .object parent)).2.activation? id = a.activation? id := by
  unfold activation?
  rw [h.scope?_allocate]
  split
  · rename_i same
    rw [same, h.scope?_fst_allocate]
    rfl
  · rfl

theorem WellFormed.activation?_function {a : Arena ο} (h : a.WellFormed) (parent : Option ScopeId)
    (id : ScopeId) :
    (a.allocate (blank .function parent)).2.activation? id =
      if id = (a.allocate (blank .function parent)).1 then some (a.clock + 1)
      else a.activation? id := by
  unfold activation?
  rw [h.scope?_allocate]
  split <;> rfl

theorem Turnover.of_allocate_eq {a b : Arena ο} {kind : ScopeKind} (h : kind ≠ .global)
    {parent : Option ScopeId} {id : ScopeId} (made : a.allocate (blank kind parent) = (id, b)) :
    Turnover a b := by
  have turnover := Turnover.make (a := a) h parent
  rw [made] at turnover
  exact turnover

theorem WellFormed.scope?_of_allocate_eq {a b : Arena ο} (h : a.WellFormed) {s : Scope ο}
    {id : ScopeId} (made : a.allocate s = (id, b)) (other : ScopeId) :
    b.scope? other =
      if other = id then some { s with created := a.clock + 1 } else a.scope? other := by
  have there := h.scope?_allocate s other
  rw [made] at there
  exact there

/-- The global scope is always there for an object to be made inside it. -/
theorem WellFormed.on_newObject {a : Arena ο} (h : a.WellFormed) (held : List Value) :
    (newObject held (some global)).on a =
      (.ok ((a.reclaim held).2.allocate (blank .object (some global))).1,
        ((a.reclaim held).2.allocate (blank .object (some global))).2) := by
  obtain ⟨g, live, _⟩ := h.global_live
  rw [Arena.on_newObject]
  simp [isLive, live, Option.filter]

/-- The scope of a call is live at its end, since nothing in between makes or releases another
function scope for good. -/
theorem WellFormed.exists_frame {a b c d : Arena ο} (wf : a.WellFormed) {parent : Option ScopeId}
    {frame : ScopeId} (made : a.allocate (blank .function parent) = (frame, b))
    (bound : Fills frame b c) (same : ∀ id, d.activation? id = c.activation? id) :
    ∃ s, d.scope? frame = some s ∧ s.kind = .function ∧ s.created = a.clock + 1 := by
  have own := wf.activation?_function parent frame
  rwa [made, if_pos rfl, ← bound.activation?_eq, ← same, activation?_eq_some_iff] at own

theorem Fill.change {a b : Arena ο} {id : ScopeId} (h : Fill id a b) : Change a b := by
  obtain ⟨s, name, value, live, rfl⟩ := h
  exact .write live name value

theorem Fills.changes {a b : Arena ο} {id : ScopeId} (h : Fills id a b) : Changes a b :=
  h.lift (fun c => c) fun _ _ => Fill.change

/-- Activities are changes, and all function scopes that were live are live, and no others. The
second is needed for the first: what a call releases is the scope that it made. -/
theorem Activity.changes_and_activation? {within : Bool} {a b : Arena ο}
    (h : Activity objects within a b) (wf : a.WellFormed) :
    Changes a b ∧ ∀ id, b.activation? id = a.activation? id := by
  induction h with
  | idle => exact ⟨.refl, fun _ => rfl⟩
  | trans _ _ ih ih' =>
    obtain ⟨changes, same⟩ := ih wf
    obtain ⟨changes', same'⟩ := ih' (changes.wellFormed wf)
    exact ⟨changes.trans changes', fun id => (same' id).trans (same id)⟩
  | shuffle live same =>
    exact ⟨.single (.write live _ _), activation?_written live _ _⟩
  | @object _ a b c id allowed held made filled =>
    have reclaimed := a.turnovers_reclaim held
    have turnovers : Turnovers a b := reclaimed.tail (.of_allocate_eq (by simp) made)
    refine ⟨turnovers.changes.trans filled.changes, fun other => ?_⟩
    have fresh := (reclaimed.wellFormed wf).activation?_object (some global) other
    rw [made] at fresh
    rw [filled.activation?_eq, fresh, activation?_reclaim]
  | @call _ a b c d parent frame live made bound body ih =>
    have opened : Change a b := .turnover (.of_allocate_eq (by simp) made)
    have before : Changes a c := .head opened bound.changes
    obtain ⟨changes, same⟩ := ih (before.wellFormed wf)
    have during : ∀ id, d.activation? id =
        if id = frame then some (a.clock + 1) else a.activation? id := by
      intro id
      have pushed := wf.activation?_function (some parent) id
      rw [made] at pushed
      rw [same, bound.activation?_eq, pushed]
    obtain ⟨s, here, function, _⟩ := wf.exists_frame made bound same
    refine ⟨(before.trans changes).tail (.turnover (.release here (by simp [function]))), ?_⟩
    intro id
    rw [activation?_release]
    split
    · rename_i slot
      cases active : a.activation? id with
      | none => rfl
      | some created =>
        have apart : id ≠ frame := by
          rintro rfl
          have unknown := wf.scope?_fst_allocate (blank .function (some parent))
          rw [made] at unknown
          simp [activation?, unknown] at active
        have known := during id
        rw [if_neg apart, active, activation?_eq_some_iff] at known
        obtain ⟨t, there, _⟩ := known
        exact absurd (eq_of_index_eq there here slot) apart
    · rename_i slot
      rw [during, if_neg]
      rintro rfl
      exact slot rfl
  | list arguments ih =>
    obtain ⟨changes, same⟩ := ih wf.openArguments
    exact ⟨.head .openArguments (changes.tail .closeArguments), same⟩
  | begin index =>
    exact ⟨.single (.beginArgument index), fun id => activation?_congr (by simp)⟩

theorem Activity.changes {within : Bool} {a b : Arena ο} (h : Activity objects within a b)
    (wf : a.WellFormed) : Changes a b :=
  (h.changes_and_activation? wf).1

/-- After an activity the same function scopes are live as before. -/
theorem Activity.activation?_eq {within : Bool} {a b : Arena ο} (h : Activity objects within a b)
    (wf : a.WellFormed) (id : ScopeId) : b.activation? id = a.activation? id :=
  (h.changes_and_activation? wf).2 id

theorem Activity.wellFormed {within : Bool} {a b : Arena ο} (h : Activity objects within a b)
    (wf : a.WellFormed) : b.WellFormed :=
  (h.changes wf).wellFormed wf

/-- When the open lists were opened, and which arguments of theirs are being resolved. -/
def openLists (a : Arena ο) : List (Nat × Nat) :=
  a.journal.map fun frame => (frame.opened, frame.current)

theorem openLists_written (a : Arena ο) (id : ScopeId) (s : Scope ο) (name : String)
    (value : Value) : (a.written id s name value).openLists = a.openLists := by
  have noted : ∀ journal : List Frame,
      (a.noteWrite s.created id name journal).1.map (fun f => (f.opened, f.current)) =
        journal.map fun f => (f.opened, f.current) := by
    intro journal
    induction journal with
    | nil => rfl
    | cons frame outer ih =>
      rw [fst_noteWrite_cons, List.map_cons, List.map_cons, ih]
      split <;> rfl
  exact noted a.journal

theorem Fills.openLists_eq {a b : Arena ο} {id : ScopeId} (h : Fills id a b) :
    b.openLists = a.openLists := by
  induction h with
  | refl => rfl
  | tail _ fill ih =>
    obtain ⟨s, name, value, _, rfl⟩ := fill
    rw [openLists_written, ih]

theorem openLists_closeArguments (a : Arena ο) :
    a.closeArguments.openLists = a.openLists.tail := by
  simp [openLists, Arena.closeArguments, List.map_tail]

/-- Of the open lists, an activity changes at most the current argument of the innermost one. -/
theorem Activity.tail_openLists_eq {within : Bool} {a b : Arena ο} (h : Activity objects within a b) :
    b.openLists.tail = a.openLists.tail ∧
      b.openLists.map Prod.fst = a.openLists.map Prod.fst ∧
      (within = false → b.openLists = a.openLists) := by
  induction h with
  | idle => exact ⟨rfl, rfl, fun _ => rfl⟩
  | trans _ _ ih ih' =>
    obtain ⟨tail, times, equal⟩ := ih
    obtain ⟨tail', times', equal'⟩ := ih'
    exact ⟨tail'.trans tail, times'.trans times, fun h => (equal' h).trans (equal h)⟩
  | shuffle live same => simp [openLists_written]
  | @object _ a b c id allowed held made filled =>
    have turnover : Turnover _ b := .of_allocate_eq (by simp) made
    have equal : c.openLists = a.openLists := by
      rw [filled.openLists_eq]
      simp only [openLists, turnover.journal_eq, (a.turnovers_reclaim held).journal_eq]
    simp [equal]
  | @call _ a b c d parent frame live made bound body ih =>
    have turnover : Turnover a b := .of_allocate_eq (by simp) made
    have equal : (d.release frame.index).openLists = a.openLists := by
      have during := ih.2.2 rfl
      rw [bound.openLists_eq] at during
      simpa only [openLists, journal_release, turnover.journal_eq] using during
    simp [equal]
  | @list _ a b arguments ih =>
    have equal : b.closeArguments.openLists = a.openLists := by
      rw [openLists_closeArguments, ih.1]
      rfl
    simp [equal]
  | @begin a index =>
    cases hj : a.journal <;> simp [openLists, Arena.beginArgument, hj]

/-- After an evaluation the same lists are open as before, at the same arguments. -/
theorem Activity.openLists_eq {a b : Arena ο} (h : Activity objects false a b) :
    b.openLists = a.openLists :=
  h.tail_openLists_eq.2.2 rfl

/-- At the end of a call its scope is newer than every list that is open then. -/
theorem WellFormed.exists_newest_frame {a b c d : Arena ο} (wf : a.WellFormed)
    {parent : Option ScopeId} {frame : ScopeId}
    (made : a.allocate (blank .function parent) = (frame, b)) (bound : Fills frame b c)
    (body : Activity objects false c d) :
    ∃ s, d.scope? frame = some s ∧ s.kind = .function ∧ s.created = a.clock + 1 ∧
      ∀ list ∈ d.journal, list.opened < s.created := by
  have opened : Turnover a b := .of_allocate_eq (by simp) made
  have wfc := bound.changes.wellFormed (opened.wellFormed wf)
  obtain ⟨s, here, function, created⟩ := wf.exists_frame made bound (body.activation?_eq wfc)
  refine ⟨s, here, function, created, fun list hl => ?_⟩
  -- the lists that are open are those that were open before the call
  have lists : d.openLists = a.openLists := by
    rw [body.openLists_eq, bound.openLists_eq]
    simp only [openLists, opened.journal_eq]
  have mem : (list.opened, list.current) ∈ a.openLists := lists ▸ List.mem_map_of_mem hl
  obtain ⟨old, hold, same⟩ := List.mem_map.1 mem
  have before := wf.opened_le old hold
  have times : old.opened = list.opened := congrArg Prod.fst same
  omega

/-- The property does not depend on the order of the items of an array. -/
def UpToOrder (P : Option Value → Prop) : Prop :=
  ∀ v w, P v → Rearranged v w → P w

theorem upToOrder_rearranged (v : Option Value) : UpToOrder (Rearranged v) :=
  fun _ _ => Rearranged.trans

/-- The stored value of a binding and all its prior values have the property. -/
def Every (P : Option Value → Prop) (a : Arena ο) (place : Place) : Prop :=
  P (a.stored? place.scope place.name) ∧
    ∀ frame ∈ a.journal, ∀ w, frame.touched.find? place = some w → P w.prior

/-- What a binding reads as is one of its values. -/
theorem Every.readUnder {P : Option Value → Prop} {a : Arena ο} {id : ScopeId} {name : String}
    (h : a.Every P ⟨id, name⟩) (journal : List Frame) (hj : ∀ f ∈ journal, f ∈ a.journal) :
    P (a.readUnder journal id name) := by
  induction journal with
  | nil => exact h.1
  | cons frame outer ih =>
    simp only [Arena.readUnder, masked?]
    cases touched : frame.touched.find? ⟨id, name⟩ with
    | none => exact ih fun f hf => hj f (by simp [hf])
    | some w =>
      by_cases own : w.writer = frame.current
      · simpa [own] using h.1
      · simpa [own] using h.2 frame (hj frame (by simp)) w touched

/-- A prior value that a write adds to the journal is what the binding read as. -/
theorem Every.noteWrite {P : Option Value → Prop} {a : Arena ο} {place : Place}
    (h : a.Every P place) (created : Nat) (id : ScopeId) (name : String)
    (journal : List Frame) (hj : ∀ f ∈ journal, f ∈ a.journal) :
    ∀ frame ∈ (a.noteWrite created id name journal).1, ∀ w,
      frame.touched.find? place = some w → P w.prior := by
  induction journal with
  | nil => simp [Arena.noteWrite]
  | cons first outer ih =>
    have houter : ∀ f ∈ outer, f ∈ a.journal := fun f hf => hj f (by simp [hf])
    intro frame hf w found
    rw [fst_noteWrite_cons, List.mem_cons] at hf
    obtain rfl | hf := hf
    · split at found
      · exact h.2 first (hj first (by simp)) w found
      · by_cases same : (⟨id, name⟩ : Place) = place
        · subst same
          rw [Frame.find?_touched_note_self] at found
          cases found
          cases touched : first.touched.find? ⟨id, name⟩ with
          | none => exact h.readUnder outer houter
          | some old => exact h.2 first (hj first (by simp)) old touched
        · rw [Frame.find?_touched_note_of_ne _ _ same] at found
          exact h.2 first (hj first (by simp)) w found
    · exact ih houter frame hf w found

/-- A binding keeps the property if what is written to it has it. -/
theorem Every.written {P : Option Value → Prop} {a : Arena ο} {id : ScopeId} {s : Scope ο}
    (live : a.scope? id = some s) {name : String} {new : Value} {place : Place}
    (h : a.Every P place) (same : (⟨id, name⟩ : Place) = place → P (some new)) :
    (a.written id s name new).Every P place := by
  constructor
  · rw [stored?_written live]
    split
    · rename_i equal
      exact same equal
    · exact h.1
  · exact h.noteWrite s.created id name a.journal fun _ hf => hf

/-- Scopes of the first arena that the second one still has are of the same kind and inside the same
scope there, and the values of a binding keep what properties they share up to order. -/
def Conserves (a b : Arena ο) : Prop :=
  ∀ id t, b.scope? id = some t → t.created ≤ a.clock →
    ∃ s, a.scope? id = some s ∧ s.created = t.created ∧ s.kind = t.kind ∧ s.parent = t.parent ∧
      ∀ name P, UpToOrder P → a.Every P ⟨id, name⟩ → b.Every P ⟨id, name⟩

theorem Conserves.refl (a : Arena ο) : a.Conserves a :=
  fun _ t there _ => ⟨t, there, rfl, rfl, rfl, fun _ _ _ h => h⟩

theorem Conserves.trans {a b c : Arena ο} (hab : a.Conserves b) (hbc : b.Conserves c)
    (clock : a.clock ≤ b.clock) : a.Conserves c := by
  intro id u there older
  obtain ⟨t, here, created, kind, parent, keep⟩ := hbc id u there (Nat.le_trans older clock)
  obtain ⟨s, first, created', kind', parent', keep'⟩ := hab id t here (created ▸ older)
  refine ⟨s, first, created'.trans created, kind'.trans kind, parent'.trans parent, ?_⟩
  exact fun name P order h => keep name P order (keep' name P order h)

/-- Arenas that have the same scopes conserve one another if the second one has no more prior
values. -/
theorem Conserves.of_scope?_eq {a b : Arena ο} (scopes : ∀ id, b.scope? id = a.scope? id)
    (priors : ∀ frame ∈ b.journal, ∀ place w, frame.touched.find? place = some w →
      ∃ known ∈ a.journal, known.touched.find? place = some w) : a.Conserves b := by
  intro id t there _
  refine ⟨t, by rw [← scopes, there], rfl, rfl, rfl, ?_⟩
  intro name P _ h
  refine ⟨by simpa only [stored?, scopes] using h.1, ?_⟩
  intro frame hf w found
  obtain ⟨known, hk, same⟩ := priors frame hf _ w found
  exact h.2 known hk w same

theorem conserves_release (a : Arena ο) (index : Nat) : a.Conserves (a.release index) := by
  intro id t there _
  rw [scope?_release] at there
  split at there
  · cases there
  · rename_i apart
    refine ⟨t, there, rfl, rfl, rfl, fun name P _ h => ⟨?_, h.2⟩⟩
    simpa only [stored?, scope?_release, if_neg apart] using h.1

/-- Changes of scopes conserve the bindings. -/
theorem Turnovers.conserves {a b : Arena ο} (h : Turnovers a b) (wf : a.WellFormed) :
    a.Conserves b := by
  intro id t there older
  obtain ⟨s, here, same⟩ | ⟨new, _⟩ := h.inherits wf there
  · refine ⟨s, here, by rw [same], by rw [same], by rw [same], ?_⟩
    intro name P _ every
    have stored : b.stored? id name = a.stored? id name := by
      simp only [stored?, there, here, Option.bind_some]
      rw [same]
    refine ⟨stored ▸ every.1, ?_⟩
    rw [h.journal_eq]
    exact every.2
  · omega

/-- What is written to a scope that is newer, or what a binding was up to order, may be written. -/
theorem Conserves.written {a b : Arena ο} (h : a.Conserves b) {id : ScopeId} {s : Scope ο}
    (live : b.scope? id = some s) {name : String} {new : Value}
    (allowed : a.clock < s.created ∨ Rearranged (b.findLocal? id name) (some new)) :
    a.Conserves (b.written id s name new) := by
  intro other t there older
  have before : ∃ u, b.scope? other = some u ∧ u.created = t.created ∧ u.kind = t.kind ∧
      u.parent = t.parent := by
    rw [scope?_written live] at there
    split at there
    · rename_i same
      subst same
      cases there
      exact ⟨s, live, rfl, rfl, rfl⟩
    · exact ⟨t, there, rfl, rfl, rfl⟩
  obtain ⟨u, here, created, kind, parent⟩ := before
  obtain ⟨r, first, created', kind', parent', keep⟩ := h other u here (created ▸ older)
  refine ⟨r, first, created'.trans created, kind'.trans kind, parent'.trans parent, ?_⟩
  intro n P order every
  have known := keep n P order every
  refine known.written live ?_
  intro same
  cases same
  obtain newer | same := allowed
  · rw [live] at here
    cases here
    omega
  · exact order _ _ (known.readUnder b.journal fun _ hf => hf) same

/-- A write leaves every scope what it is, but for its bindings. -/
theorem akin_written {a : Arena ο} {id : ScopeId} {s : Scope ο} (live : a.scope? id = some s)
    (name : String) (value : Value) {other : ScopeId} {t : Scope ο}
    (here : a.scope? other = some t) :
    ∃ u, (a.written id s name value).scope? other = some u ∧ t.Akin u := by
  rw [scope?_written live]
  split
  · rename_i same
    rw [same, live] at here
    cases here
    exact ⟨_, rfl, rfl, rfl, rfl⟩
  · exact ⟨t, here, .refl t⟩

theorem exists_akin_of_written {a : Arena ο} {id : ScopeId} {s : Scope ο}
    (live : a.scope? id = some s) {name : String} {value : Value} {other : ScopeId} {u : Scope ο}
    (there : (a.written id s name value).scope? other = some u) :
    ∃ t, a.scope? other = some t ∧ t.Akin u := by
  rw [scope?_written live] at there
  split at there
  · rename_i same
    cases there
    exact ⟨s, same ▸ live, rfl, rfl, rfl⟩
  · exact ⟨u, there, .refl u⟩

theorem Fills.akin {a b : Arena ο} {id : ScopeId} (h : Fills id a b) {other : ScopeId}
    {s : Scope ο} (here : a.scope? other = some s) :
    ∃ t, b.scope? other = some t ∧ s.Akin t := by
  induction h with
  | refl => exact ⟨s, here, .refl s⟩
  | tail _ fill ih =>
    obtain ⟨t, there, akin⟩ := ih
    obtain ⟨own, name, value, live, rfl⟩ := fill
    obtain ⟨u, after, akin'⟩ := akin_written live name value there
    exact ⟨u, after, akin.trans akin'⟩

/-- The bindings of a newer scope may be filled. -/
theorem Conserves.fills {a b c : Arena ο} (h : a.Conserves b) {id : ScopeId} (fills : Fills id b c)
    {s : Scope ο} (live : b.scope? id = some s) (newer : a.clock < s.created) : a.Conserves c := by
  induction fills with
  | refl => exact h
  | tail before fill ih =>
    obtain ⟨t, here, akin⟩ := Fills.akin before live
    obtain ⟨u, name, value, there, rfl⟩ := fill
    rw [here] at there
    cases there
    exact ih.written here (.inl (akin.created ▸ newer))

theorem Change.clock_le {a b : Arena ο} (h : Change a b) : a.clock ≤ b.clock := by
  cases h with
  | turnover h => exact h.clock_le
  | beginArgument index => exact Nat.le_of_eq (clock_beginArgument _ index).symm
  | _ => exact Nat.le_refl _

theorem Changes.clock_le {a b : Arena ο} (h : Changes a b) : a.clock ≤ b.clock := by
  induction h with
  | refl => exact Nat.le_refl _
  | tail _ step ih => exact Nat.le_trans ih step.clock_le

/-- An activity leaves the bindings of every scope that stays as they were, up to the order of items
in arrays. -/
theorem Activity.conserves {within : Bool} {a b : Arena ο} (h : Activity objects within a b)
    (wf : a.WellFormed) : a.Conserves b := by
  induction h with
  | idle => exact .refl _
  | trans first second ih ih' =>
    exact (ih wf).trans (ih' (first.wellFormed wf)) (first.changes wf).clock_le
  | shuffle live same => exact (Conserves.refl _).written live (.inr same)
  | @object _ a b c id allowed held made filled =>
    have reclaimed := a.turnovers_reclaim held
    have turnovers : Turnovers a b := reclaimed.tail (.of_allocate_eq (by simp) made)
    have there := (reclaimed.wellFormed wf).scope?_of_allocate_eq made id
    rw [if_pos rfl] at there
    exact (turnovers.conserves wf).fills filled there (Nat.lt_succ_of_le reclaimed.clock_le)
  | @call _ a b c d parent frame live made bound body ih =>
    have opened : Turnover a b := .of_allocate_eq (by simp) made
    have there := wf.scope?_of_allocate_eq made frame
    rw [if_pos rfl] at there
    have start : a.Conserves c :=
      (Turnovers.conserves (.single opened) wf).fills bound there (Nat.lt_succ_self _)
    have before : Changes a c := .head (.turnover opened) bound.changes
    have wfc := before.wellFormed wf
    have during : a.Conserves d := start.trans (ih wfc) before.clock_le
    have clock := Changes.clock_le (before.trans (body.changes wfc))
    exact during.trans (conserves_release d _) clock
  | @list _ a b arguments ih =>
    have opened : a.Conserves a.openArguments := by
      refine .of_scope?_eq (fun _ => rfl) ?_
      intro frame hf place w found
      obtain rfl | hf := List.mem_cons.1 hf
      · cases found
      · exact ⟨frame, hf, found⟩
    have closed : b.Conserves b.closeArguments := by
      refine .of_scope?_eq (fun _ => rfl) ?_
      intro frame hf place w found
      exact ⟨frame, List.mem_of_mem_tail hf, found⟩
    have during := opened.trans (ih wf.openArguments) (Nat.le_refl _)
    exact during.trans closed (arguments.changes wf.openArguments).clock_le
  | @begin a index =>
    refine .of_scope?_eq (fun id => by simp) ?_
    intro frame hf place w found
    obtain ⟨old, mem, _, touched⟩ := exists_of_mem_beginArgument hf
    exact ⟨old, mem, touched ▸ found⟩

/-- Until generations could come round, changes give no handle of a scope to another one. -/
theorem Changes.issued {a b : Arena ο} (h : Changes a b) (wf : a.WellFormed)
    (few : b.clock + 1 < 2 ^ 32) {id : ScopeId} {created : Nat} (issued : a.Issued id created) :
    b.Issued id created := by
  induction h with
  | refl => exact issued
  | tail before step ih =>
    have hle := step.clock_le
    have known := ih (by omega)
    cases step with
    | write live name value => exact known.put live rfl
    | turnover h => exact h.issued (Changes.wellFormed before wf) few known
    | openArguments => exact known
    | beginArgument index => simpa only [Issued, slots_beginArgument] using known
    | closeArguments => exact known

/-- A handle that is live before and after an activity stands for one scope, until generations could
come round. -/
theorem Activity.created_eq {within : Bool} {a b : Arena ο} (h : Activity objects within a b)
    (wf : a.WellFormed) (few : b.clock + 1 < 2 ^ 32) {id : ScopeId} {s t : Scope ο}
    (before : a.scope? id = some s) (after : b.scope? id = some t) : t.created = s.created :=
  ((h.changes wf).issued wf few (issued_of_live before)).created_eq after

theorem Fills.reachable {a b : Arena ο} {id : ScopeId} (h : Fills id a b) (ha : a.Reachable) :
    b.Reachable := by
  induction h with
  | refl => exact ha
  | tail _ fill ih =>
    obtain ⟨s, name, value, live, rfl⟩ := fill
    have after := ih.after (.define id name value)
    simpa [Operation.after, Operation.perform, on_define, live] using after

/-- What can be reached can be reached without evaluations. -/
theorem Activity.reachable {within : Bool} {a b : Arena ο} (h : Activity objects within a b)
    (ha : a.Reachable) : b.Reachable := by
  induction h with
  | idle => exact ha
  | trans _ _ ih ih' => exact ih' (ih ha)
  | @shuffle _ a id s name value live same =>
    have after := ha.after (.define id name value)
    simpa [Operation.after, Operation.perform, on_define, live] using after
  | @object _ a b c id allowed held made filled =>
    have after := ha.after (.newObject held (some global))
    simp only [Operation.after, Operation.perform, Operation.snd_on_forget,
      ha.wellFormed.on_newObject, made] at after
    exact filled.reachable after
  | @call _ a b c d parent frame live made bound body ih =>
    have wf := ha.wellFormed
    obtain ⟨p, parentLive⟩ := (a.isLive_iff parent).1 live
    have pushed := ha.after (.pushFunction parent)
    simp only [Operation.after, Operation.perform, Operation.snd_on_forget, on_pushFunction,
      parentLive, made] at pushed
    have reached := ih (bound.reachable pushed)
    obtain ⟨s, there, function, _⟩ := wf.exists_newest_frame made bound body
    have popped := reached.after (.popFunction frame)
    simpa only [Operation.after, Operation.perform, Operation.snd_on_forget, on_popFunction, there,
      function, if_true] using popped
  | list arguments ih => exact (ih (ha.after .openArguments)).after .closeArguments
  | begin index => exact ha.after (.beginArgument index)

end Arena

end Fluent

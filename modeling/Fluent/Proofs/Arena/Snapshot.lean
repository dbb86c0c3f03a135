import Mathlib.Data.List.Find
import Fluent.Proofs.Arena.Generations

/-!
# What a binding reads as while argument lists are open

The journal keeps, for each open argument list and each binding written meanwhile, one prior value
and one writer. Here a run of operations is watched by an onlooker with more patience: for every
open list the onlooker keeps what the whole store read as when the list was opened, and the order of
all writes since.

The journal knows a scope by its handle, and an onlooker may do so too, or know it by when it was
made. Main statements: `findLocal?_eq_expected`, the journal answers every read as the former does,
and as the latter does unless generations have come round; `not_findLocal?_eq_expectedFor`, and that
then it need not.
-/
namespace Fluent

/-- What the onlooker keeps of an open argument list. -/
structure Snapshot where
  /-- The time at which the list was opened. -/
  opened : Nat
  /-- How many of its arguments have begun to resolve. -/
  turn : Nat := 0
  /-- What every binding read as at the moment at which the list was opened. -/
  before : ScopeId → String → Option Value
  /-- The writes since then, the last one first, each with the turn in which it was made. -/
  writes : List (Write × Nat) := []

namespace Snapshot

/-- The list sees one more write. -/
def note (l : Snapshot) (w : Write) : Snapshot :=
  { l with writes := (w, l.turn) :: l.writes }

/-- The list sees its next argument begin. -/
def begin (l : Snapshot) : Snapshot :=
  { l with turn := l.turn + 1 }

/-- The turn in which the binding was written last, if the list was opened after the scope was made
that was written to. -/
def lastTurn? (l : Snapshot) (place : Place) : Option Nat :=
  (l.writes.find? fun w => w.1.place = place ∧ w.1.created ≤ l.opened).map (·.2)

@[simp] theorem opened_note (l : Snapshot) (w : Write) : (l.note w).opened = l.opened := rfl

@[simp] theorem turn_note (l : Snapshot) (w : Write) : (l.note w).turn = l.turn := rfl

@[simp] theorem before_note (l : Snapshot) (w : Write) : (l.note w).before = l.before := rfl

theorem lastTurn?_note (l : Snapshot) (w : Write) (place : Place) :
    (l.note w).lastTurn? place =
      if w.place = place ∧ w.created ≤ l.opened then some l.turn else l.lastTurn? place := by
  by_cases h : w.place = place ∧ w.created ≤ l.opened
  · simp [lastTurn?, note, h]
  · simp only [lastTurn?, note, List.find?_cons, h, decide_false, if_false]
    rfl

/-- What a binding has to read as, given its last written value and the open lists, the innermost
first. The innermost list during which it was written decides. The argument that wrote it last reads
what was written last; every other argument reads what the binding was when the list was opened. -/
def expected (place : Place) (last : Option Value) : List Snapshot → Option Value
  | [] => last
  | l :: outer =>
    match l.lastTurn? place with
    | some turn => if turn = l.turn then last else l.before place.scope place.name
    | none => expected place last outer

/-- What a binding of a scope that was made at the given time has to read as. The innermost list
decides that was opened since then and during which the binding was written. -/
def expectedFor (created : Nat) (place : Place) (last : Option Value) :
    List Snapshot → Option Value
  | [] => last
  | l :: outer =>
    match if created ≤ l.opened then l.writes.find? (·.1.place = place) else none with
    | some (_, turn) => if turn = l.turn then last else l.before place.scope place.name
    | none => expectedFor created place last outer

theorem expectedFor_of_younger {created : Nat} {lists : List Snapshot}
    (younger : ∀ l ∈ lists, l.opened < created) (place : Place) (last : Option Value) :
    expectedFor created place last lists = last := by
  induction lists with
  | nil => rfl
  | cons l outer ih =>
    have before := younger l List.mem_cons_self
    rw [expectedFor, if_neg (by omega)]
    exact ih fun m mem => younger m (List.mem_cons_of_mem l mem)

/-- It makes no difference how the scope is known if the lists see the same writes to it. -/
theorem expected_eq_expectedFor {created : Nat} {place : Place} (last : Option Value)
    {lists : List Snapshot}
    (h : ∀ l ∈ lists, l.lastTurn? place =
      (if created ≤ l.opened then l.writes.find? (·.1.place = place) else none).map (·.2)) :
    expected place last lists = expectedFor created place last lists := by
  induction lists with
  | nil => rfl
  | cons l outer ih =>
    have tail := ih fun m mem => h m (List.mem_cons_of_mem l mem)
    rw [expected, expectedFor, h l List.mem_cons_self]
    cases if created ≤ l.opened then l.writes.find? (·.1.place = place) else none with
    | none => exact tail
    | some w => rfl

end Snapshot

/-- A run of operations so far, with what the onlooker keeps. -/
structure Chronicle (ο : Type) where
  arena : Arena ο
  /-- The open argument lists, the innermost first. -/
  lists : List Snapshot
  /-- The last written value of every binding. -/
  last : Place → Option Value

namespace Chronicle

variable {ο : Type}

/-- Nothing has happened yet, and only the global scope is there. -/
def start (policy : AssignmentPolicy) (bindings : List (String × Value)) : Chronicle ο where
  arena := .ofGlobals policy bindings
  lists := []
  last place :=
    if place.scope = Arena.global then (Table.ofList bindings).find? place.name else none

/-- What an operation makes of the open lists, apart from a write. -/
def listsAfter (c : Chronicle ο) : Operation ο → List Snapshot
  | .openArguments => { opened := c.arena.clock, before := c.arena.findLocal? } :: c.lists
  | .beginArgument _ => c.lists.modifyHead Snapshot.begin
  | .closeArguments => c.lists.tail
  | _ => c.lists

/-- What an operation makes of the last written value of a binding, apart from a write: a scope that
was made by it has not been written to. -/
def lastAfter (c : Chronicle ο) (op : Operation ο) (place : Place) : Option Value :=
  match (op.after c.arena).scope? place.scope with
  | some s => if s.created ≤ c.arena.clock then c.last place else none
  | none => none

/-- One operation, watched. -/
def step (c : Chronicle ο) (op : Operation ο) : Chronicle ο :=
  match op.write? c.arena with
  | some w =>
    { arena := op.after c.arena
      lists := c.lists.map (·.note w)
      last := fun place => if place = w.place then some w.value else c.last place }
  | none =>
    { arena := op.after c.arena
      lists := c.listsAfter op
      last := c.lastAfter op }

theorem arena_step (c : Chronicle ο) (op : Operation ο) : (c.step op).arena = op.after c.arena := by
  unfold step
  split <;> rfl

/-- Arguments begin in order, only an open list is closed, and nothing is written between the
opening of a list and the beginning of its first argument. -/
def Allows (c : Chronicle ο) : Operation ο → Prop
  | .define .. | .assign .. => ∀ l ∈ c.lists, 0 < l.turn
  | .beginArgument index => (c.lists.head?.map (·.turn)) = some index
  | .closeArguments => c.lists ≠ []
  | _ => True

/-- What runs of operations lead to. -/
inductive Run : Chronicle ο → Prop where
  | start (policy : AssignmentPolicy) (bindings : List (String × Value)) : Run (start policy bindings)
  | step {c : Chronicle ο} (run : Run c) (op : Operation ο) (allowed : c.Allows op) :
      Run (c.step op)

theorem Run.reachable {c : Chronicle ο} (run : c.Run) : c.arena.Reachable := by
  induction run with
  | start policy bindings => exact .ofGlobals policy bindings
  | step _ op _ ih =>
    rw [arena_step]
    exact ih.after op

end Chronicle

namespace Arena

variable {ο : Type}

/-- What a frame of the journal says is what the onlooker keeps of its list. A binding that was not
written since the list was opened still reads, under the outer lists, as it did then. -/
structure Shows (a : Arena ο) (outer : List Frame) (frame : Frame) (l : Snapshot) : Prop where
  opened : frame.opened = l.opened
  current : frame.current = l.turn - 1
  begun : ∀ w ∈ l.writes, 1 ≤ w.2 ∧ w.2 ≤ l.turn
  touched : ∀ place : Place, frame.touched.find? place =
    (l.lastTurn? place).map fun turn => ⟨l.before place.scope place.name, turn - 1⟩
  unwritten : ∀ id s, a.scope? id = some s → s.created ≤ l.opened →
    ∀ name, l.lastTurn? ⟨id, name⟩ = none → a.readUnder outer id name = l.before id name

/-- Every frame of a journal says what the onlooker keeps of its list. -/
def Mirrors (a : Arena ο) : List Frame → List Snapshot → Prop
  | [], [] => True
  | frame :: outer, l :: lists => a.Shows outer frame l ∧ a.Mirrors outer lists
  | _, _ => False

theorem Shows.lastTurn?_bounds {a : Arena ο} {outer : List Frame} {frame : Frame} {l : Snapshot}
    (h : a.Shows outer frame l) {place : Place} {turn : Nat} (ht : l.lastTurn? place = some turn) :
    1 ≤ turn ∧ turn ≤ l.turn := by
  obtain ⟨w, hw, rfl⟩ := Option.map_eq_some_iff.1 ht
  exact h.begun w (List.mem_of_find?_eq_some hw)

/-- Every list that the onlooker keeps has its frame. -/
theorem Mirrors.exists_frame {a : Arena ο} {journal : List Frame} {lists : List Snapshot}
    (h : a.Mirrors journal lists) {l : Snapshot} (hl : l ∈ lists) :
    ∃ frame ∈ journal, ∃ outer, a.Shows outer frame l := by
  induction journal generalizing lists with
  | nil =>
    cases lists with
    | nil => cases hl
    | cons m lists => exact h.elim
  | cons frame outer ih =>
    cases lists with
    | nil => cases hl
    | cons m lists =>
      obtain ⟨head, tail⟩ := h
      obtain rfl | hl := List.mem_cons.1 hl
      · exact ⟨frame, List.mem_cons_self, outer, head⟩
      · obtain ⟨f, mem, rest⟩ := ih tail hl
        exact ⟨f, List.mem_cons_of_mem frame mem, rest⟩

/-- Where frames and snapshots agree, so do the reads. -/
theorem Mirrors.readUnder_eq {a : Arena ο} {journal : List Frame} {lists : List Snapshot}
    (h : a.Mirrors journal lists) (id : ScopeId) (name : String) :
    a.readUnder journal id name = Snapshot.expected ⟨id, name⟩ (a.stored? id name) lists := by
  induction journal generalizing lists with
  | nil =>
    cases lists with
    | nil => rfl
    | cons l lists => exact h.elim
  | cons frame outer ih =>
    cases lists with
    | nil => exact h.elim
    | cons l lists =>
      obtain ⟨head, tail⟩ := h
      simp only [readUnder, masked?, Snapshot.expected, head.touched]
      cases ht : l.lastTurn? ⟨id, name⟩ with
      | none => exact ih tail
      | some turn =>
        have hb := head.lastTurn?_bounds ht
        by_cases own : turn = l.turn
        · simp [own, head.current]
        · have hne : turn - 1 ≠ l.turn - 1 := by omega
          simp [own, head.current, hne]

/-- What the snapshots say of an arena is about its older scopes only. -/
theorem Mirrors.congr {a b : Arena ο} {journal : List Frame} {lists : List Snapshot}
    (h : a.Mirrors journal lists)
    (hs : ∀ frame ∈ journal, ∀ id t, b.scope? id = some t → t.created ≤ frame.opened →
      ∃ s, a.scope? id = some s ∧ s.created = t.created ∧ s.bindings = t.bindings) :
    b.Mirrors journal lists := by
  induction journal generalizing lists with
  | nil =>
    cases lists with
    | nil => trivial
    | cons l lists => exact h.elim
  | cons frame outer ih =>
    cases lists with
    | nil => exact h.elim
    | cons l lists =>
      obtain ⟨head, tail⟩ := h
      refine ⟨{ head with unwritten := ?_ }, ih tail fun f hf => hs f (by simp [hf])⟩
      intro id t there hc name hn
      obtain ⟨s, here, created, bindings⟩ :=
        hs frame (by simp) id t there (head.opened.symm ▸ hc)
      rw [← head.unwritten id s here (created.symm ▸ hc) name hn]
      simp [readUnder, stored?, here, there, bindings]

/-- A write is entered in a frame as the onlooker notes it. Both take note only if the list was
opened after the scope was made. -/
theorem Shows.written {a : Arena ο} {outer : List Frame} {frame : Frame} {l : Snapshot}
    (h : a.Shows outer frame l) {id : ScopeId} {s : Scope ο} (live : a.scope? id = some s)
    (name : String) (value : Value) (begun : 0 < l.turn) :
    (a.written id s name value).Shows (a.noteWrite s.created id name outer).1
      (if frame.opened < s.created then frame
        else frame.note ⟨id, name⟩ (a.readUnder outer id name))
      (l.note ⟨⟨id, name⟩, value, s.created⟩) := by
  constructor
  · split <;> exact h.opened
  · split <;> exact h.current
  · intro w hw
    obtain rfl | hw := List.mem_cons.1 hw
    · exact ⟨begun, Nat.le_refl _⟩
    · exact h.begun w hw
  · intro place
    have opened := h.opened
    rw [Snapshot.lastTurn?_note]
    split
    · rename_i younger
      have hle : ¬ s.created ≤ l.opened := by omega
      simp [hle, h.touched]
    · rename_i older
      have hle : s.created ≤ l.opened := by omega
      by_cases same : (⟨id, name⟩ : Place) = place
      · subst same
        rw [Frame.find?_touched_note_self, h.touched]
        cases ht : l.lastTurn? ⟨id, name⟩ with
        | none => simp [hle, h.current, h.unwritten id s live hle name ht]
        | some turn => simp [hle, h.current]
      · rw [Frame.find?_touched_note_of_ne _ _ same, h.touched]
        simp [same]
  · intro other t there hc n hn
    rw [Snapshot.lastTurn?_note] at hn
    have apart : (⟨id, name⟩ : Place) ≠ ⟨other, n⟩ := by
      intro same
      cases same
      rw [scope?_written live, if_pos rfl] at there
      cases there
      have hle : s.created ≤ l.opened := hc
      simp [hle] at hn
    rw [readUnder_written_of_ne live value apart]
    rw [scope?_written live] at there
    split at there
    · rename_i same
      subst same
      cases there
      exact h.unwritten other s live hc n (by simpa [apart] using hn)
    · exact h.unwritten other t there hc n (by simpa [apart] using hn)

/-- A write is entered in all frames as the onlooker notes it. -/
theorem Mirrors.written {a : Arena ο} {journal : List Frame} {lists : List Snapshot}
    (h : a.Mirrors journal lists) {id : ScopeId} {s : Scope ο} (live : a.scope? id = some s)
    (name : String) (value : Value) (begun : ∀ l ∈ lists, 0 < l.turn) :
    (a.written id s name value).Mirrors (a.noteWrite s.created id name journal).1
      (lists.map (·.note ⟨⟨id, name⟩, value, s.created⟩)) := by
  induction journal generalizing lists with
  | nil =>
    cases lists with
    | nil => trivial
    | cons l lists => exact h.elim
  | cons frame outer ih =>
    cases lists with
    | nil => exact h.elim
    | cons l lists =>
      obtain ⟨head, tail⟩ := h
      rw [fst_noteWrite_cons, List.map_cons]
      refine ⟨head.written live name value (begun l (by simp)), ?_⟩
      exact ih tail fun l hl => begun l (by simp [hl])

theorem Mirrors.openArguments {a : Arena ο} {lists : List Snapshot}
    (h : a.Mirrors a.journal lists) :
    a.openArguments.Mirrors a.openArguments.journal
      ({ opened := a.clock, before := a.findLocal? } :: lists) := by
  refine ⟨⟨rfl, rfl, by simp, fun _ => rfl, fun _ _ _ _ _ _ => rfl⟩, ?_⟩
  exact h.congr fun _ _ id t there _ => ⟨t, there, rfl, rfl⟩

theorem Mirrors.beginArgument {a : Arena ο} {lists : List Snapshot}
    (h : a.Mirrors a.journal lists) {index : Nat} (ht : lists.head?.map (·.turn) = some index) :
    (a.beginArgument index).Mirrors (a.beginArgument index).journal
      (lists.modifyHead Snapshot.begin) := by
  have same : (a.beginArgument index).Mirrors a.journal lists :=
    h.congr fun _ _ id t there _ => ⟨t, by rwa [scope?_beginArgument] at there, rfl, rfl⟩
  cases hj : a.journal with
  | nil =>
    cases lists with
    | nil => cases ht
    | cons l lists =>
      rw [hj] at h
      exact h.elim
  | cons frame outer =>
    cases lists with
    | nil => cases ht
    | cons l lists =>
      rw [hj] at same
      obtain ⟨head, tail⟩ := same
      simp only [List.head?_cons, Option.map_some, Option.some.injEq] at ht
      have hjournal : (a.beginArgument index).journal = { frame with current := index } :: outer := by
        simp [Arena.beginArgument, hj]
      rw [hjournal]
      refine ⟨{ head with current := ?_, begun := ?_ }, tail⟩
      · simp [Snapshot.begin, ht]
      · intro w hw
        have hb := head.begun w hw
        simp only [Snapshot.begin]
        omega

theorem Mirrors.closeArguments {a : Arena ο} {lists : List Snapshot}
    (h : a.Mirrors a.journal lists) :
    a.closeArguments.Mirrors a.closeArguments.journal lists.tail := by
  have same : a.closeArguments.Mirrors a.journal lists :=
    h.congr fun _ _ id t there _ => ⟨t, there, rfl, rfl⟩
  cases hj : a.journal with
  | nil =>
    cases lists with
    | nil => simp [Arena.closeArguments, hj, Mirrors]
    | cons l lists =>
      rw [hj] at h
      exact h.elim
  | cons frame outer =>
    cases lists with
    | nil =>
      rw [hj] at h
      exact h.elim
    | cons l lists =>
      rw [hj] at same
      simpa [Arena.closeArguments, hj] using same.2

theorem Mirrors.length_eq {a : Arena ο} {journal : List Frame} {lists : List Snapshot}
    (h : a.Mirrors journal lists) : lists.length = journal.length := by
  induction journal generalizing lists with
  | nil =>
    cases lists with
    | nil => rfl
    | cons l lists => exact h.elim
  | cons frame outer ih =>
    cases lists with
    | nil => exact h.elim
    | cons l lists => simp [ih h.2]

end Arena

namespace Chronicle

variable {ο : Type}

open Arena

/-- What the onlooker knows is right. -/
structure Sound (c : Chronicle ο) : Prop where
  mirrors : c.arena.Mirrors c.arena.journal c.lists
  stored : ∀ id s, c.arena.scope? id = some s →
    ∀ name, s.bindings.find? name = c.last ⟨id, name⟩
  older : ∀ l ∈ c.lists, ∀ w ∈ l.writes, ∀ s, c.arena.scope? w.1.place.scope = some s →
    s.created ≤ l.opened → w.1.created = s.created

theorem sound_start (policy : AssignmentPolicy) (bindings : List (String × Value)) :
    (start policy bindings : Chronicle ο).Sound where
  mirrors := trivial
  stored id s live name := by
    have hid : id = Arena.global := by
      obtain ⟨index, generation⟩ := id
      rw [scope?_eq_some_iff] at live
      cases index with
      | zero =>
        simp [start, ofGlobals] at live
        simp [Arena.global, live.1]
      | succ index => simp [start, ofGlobals] at live
    subst hid
    rw [scope?_eq_some_iff] at live
    simp [start, ofGlobals, Arena.global] at live
    simp [start, ← live]
  older := by simp [start]

theorem Sound.write {c : Chronicle ο} (h : c.Sound) {op : Operation ο} {w : Write}
    (hw : op.write? c.arena = some w) (begun : ∀ l ∈ c.lists, 0 < l.turn) : (c.step op).Sound := by
  have effect := op.effect_after c.arena
  rw [hw] at effect
  obtain ⟨s, live, hc, after⟩ := effect
  obtain ⟨⟨id, name⟩, value, created⟩ := w
  simp only at live hc after
  subst hc
  have hstep : c.step op =
      { arena := c.arena.written id s name value
        lists := c.lists.map (·.note ⟨⟨id, name⟩, value, s.created⟩)
        last := fun place => if place = ⟨id, name⟩ then some value else c.last place } := by
    simp only [step, hw, after]
  rw [hstep]
  constructor
  · exact h.mirrors.written live name value begun
  · intro other t there n
    have hstored := stored?_written live name value other n
    simp only [stored?, there, Option.bind_some] at hstored
    rw [hstored]
    show _ = if (⟨other, n⟩ : Place) = ⟨id, name⟩ then some value else c.last ⟨other, n⟩
    by_cases same : (⟨id, name⟩ : Place) = ⟨other, n⟩
    · rw [if_pos same, if_pos same.symm]
    · have apart : ¬ (⟨other, n⟩ : Place) = ⟨id, name⟩ := fun equal => same equal.symm
      rw [if_neg same, if_neg apart]
      simp only [scope?_written live] at there
      split at there
      · rename_i equal
        subst equal
        cases there
        simp [live, h.stored other s live n]
      · simp [there, h.stored other t there n]
  · intro l hl w hw t there made
    obtain ⟨l, known, rfl⟩ := List.mem_map.1 hl
    rw [scope?_written live] at there
    obtain rfl | hw := List.mem_cons.1 hw
    · rw [if_pos rfl] at there
      cases there
      rfl
    · split at there
      · rename_i same
        cases there
        exact h.older l known w hw s (same ▸ live) made
      · exact h.older l known w hw t there made

theorem Sound.turnovers {c : Chronicle ο} (h : c.Sound) (wf : c.arena.WellFormed) {op : Operation ο}
    (hw : op.write? c.arena = none) (hl : op.handlesLists = false) : (c.step op).Sound := by
  have effect := op.effect_after c.arena
  rw [hw] at effect
  have turnovers := effect hl
  have hlists : c.listsAfter op = c.lists := by
    cases op <;> first | rfl | cases hl
  have hstep : c.step op = ⟨op.after c.arena, c.lists, c.lastAfter op⟩ := by
    simp only [step, hw, hlists]
  rw [hstep]
  constructor
  · simp only [turnovers.journal_eq]
    refine h.mirrors.congr fun frame hf id t there hc => ?_
    obtain ⟨s, here, same⟩ | ⟨new, _⟩ := turnovers.inherits wf there
    · exact ⟨s, here, by rw [same], by rw [same]⟩
    · have := wf.opened_le frame hf
      omega
  · intro id t there name
    simp only at there
    simp only [lastAfter, there]
    obtain ⟨s, here, same⟩ | ⟨new, empty⟩ := turnovers.inherits wf there
    · have hc := wf.created_le id s here
      have : t.created ≤ c.arena.clock := by
        rw [same]
        exact hc
      rw [if_pos this, ← h.stored id s here, same]
    · rw [if_neg (by omega), empty]
      rfl
  · intro l hl w hw t there made
    obtain ⟨s, here, same⟩ | ⟨new, -⟩ := turnovers.inherits wf there
    · have kept := congrArg Scope.created same
      exact (h.older l hl w hw s here (kept ▸ made)).trans kept.symm
    · obtain ⟨frame, mem, outer, shows⟩ := h.mirrors.exists_frame hl
      have opened := wf.opened_le frame mem
      rw [shows.opened] at opened
      omega

/-- The scopes are the same, and every list that was open has the same writes. -/
theorem Sound.lists {c : Chronicle ο} (h : c.Sound) (wf : c.arena.WellFormed) {op : Operation ο}
    (hw : op.write? c.arena = none) (slots : (op.after c.arena).slots = c.arena.slots)
    (mirrors : (op.after c.arena).Mirrors (op.after c.arena).journal (c.listsAfter op))
    (writes : ∀ l ∈ c.listsAfter op, ∀ w ∈ l.writes,
      ∃ known ∈ c.lists, w ∈ known.writes ∧ l.opened = known.opened) :
    (c.step op).Sound := by
  have same : ∀ id, (op.after c.arena).scope? id = c.arena.scope? id :=
    fun id => scope?_congr (by rw [slots])
  have hstep : c.step op = ⟨op.after c.arena, c.listsAfter op, c.lastAfter op⟩ := by
    simp only [step, hw]
  rw [hstep]
  refine ⟨mirrors, ?_, ?_⟩
  · intro id s live name
    have here : c.arena.scope? id = some s := by
      rw [← same]
      exact live
    have hc := wf.created_le id s here
    simp only [lastAfter, same, here, if_pos hc]
    exact h.stored id s here name
  · intro l hl w hw t there made
    obtain ⟨known, hk, hw, opened⟩ := writes l hl w hw
    exact h.older known hk w hw t (same _ ▸ there) (opened ▸ made)

/-- What the onlooker knows stays right with every operation that a run allows. -/
theorem Sound.step {c : Chronicle ο} (h : c.Sound) (wf : c.arena.WellFormed) {op : Operation ο}
    (allowed : c.Allows op) : (c.step op).Sound := by
  cases hw : op.write? c.arena with
  | some w =>
    refine h.write hw ?_
    cases op with
    | define scope name value => exact allowed
    | assign scope name value => exact allowed
    | _ => cases hw
  | none =>
    cases op with
    | openArguments =>
      refine h.lists wf hw rfl h.mirrors.openArguments ?_
      intro l hl w hw
      obtain rfl | hl := List.mem_cons.1 hl
      · cases hw
      · exact ⟨l, hl, hw, rfl⟩
    | beginArgument index =>
      refine h.lists wf hw (slots_beginArgument _ index) (h.mirrors.beginArgument allowed) ?_
      intro l hl w hw
      simp only [listsAfter] at hl
      cases hlists : c.lists with
      | nil => simp [hlists] at hl
      | cons inner outer =>
        simp only [hlists, List.modifyHead_cons, List.mem_cons] at hl
        obtain rfl | hl := hl
        · exact ⟨inner, by simp, hw, rfl⟩
        · exact ⟨l, by simp [hl], hw, rfl⟩
    | closeArguments =>
      refine h.lists wf hw rfl h.mirrors.closeArguments ?_
      intro l hl w hw
      exact ⟨l, List.mem_of_mem_tail hl, hw, rfl⟩
    | _ => exact h.turnovers wf hw rfl

theorem Run.sound {c : Chronicle ο} (run : c.Run) : c.Sound := by
  induction run with
  | start policy bindings => exact sound_start policy bindings
  | step before op allowed ih => exact ih.step before.reachable.wellFormed allowed

theorem Sound.stored?_eq {c : Chronicle ο} (h : c.Sound) {id : ScopeId} {s : Scope ο}
    (live : c.arena.scope? id = some s) (name : String) :
    c.arena.stored? id name = c.last ⟨id, name⟩ := by
  rw [stored?, live, Option.bind_some]
  exact h.stored id s live name

/-- A list knows of the last write to a live scope that is older than itself. It knows of none to a
live scope that is younger, unless the scope's handle has been given out again. -/
theorem Sound.lastTurn?_eq {c : Chronicle ο} (h : c.Sound) {id : ScopeId} {s : Scope ο}
    (live : c.arena.scope? id = some s) (once : c.arena.GivenOnce id) (name : String) {l : Snapshot}
    (hl : l ∈ c.lists) :
    l.lastTurn? ⟨id, name⟩ =
      (if s.created ≤ l.opened then l.writes.find? (·.1.place = ⟨id, name⟩) else none).map
        (·.2) := by
  by_cases older : s.created ≤ l.opened
  · rw [if_pos older, Snapshot.lastTurn?]
    refine congrArg (Option.map _) (List.find?_congr fun w hw => ?_)
    by_cases here : w.1.place = ⟨id, name⟩
    · have made := h.older l hl w hw s (here.symm ▸ live) older
      simp [here, made, older]
    · simp [here]
  · obtain ⟨frame, mem, outer, shows⟩ := h.mirrors.exists_frame hl
    have unknown := once.unknown live mem (by rw [shows.opened]; omega) name
    rw [shows.touched] at unknown
    rw [if_neg older, Option.map_none]
    exact Option.map_eq_none_iff.1 unknown

/-- The journal answers every read of a live scope as an onlooker does who keeps, for each open
list, what the whole store read as when the list was opened. Storage holds what was written last, so
that is what every binding reads as once no list is open. The lists that decide are those opened
after a scope was made that had the handle; unless the handle has been given out again since lists
were opened that are still open, they are those opened after the live scope was made. -/
theorem findLocal?_eq_expected (c : Chronicle ο) (run : c.Run) (id : ScopeId) (s : Scope ο)
    (live : c.arena.scope? id = some s) (name : String) :
    c.arena.findLocal? id name = Snapshot.expected ⟨id, name⟩ (c.last ⟨id, name⟩) c.lists ∧
      c.arena.stored? id name = c.last ⟨id, name⟩ ∧
      (c.lists.length = c.arena.journal.length) ∧
      (c.arena.journal = [] → c.arena.findLocal? id name = c.last ⟨id, name⟩) ∧
      (c.arena.GivenOnce id → c.arena.findLocal? id name =
        Snapshot.expectedFor s.created ⟨id, name⟩ (c.last ⟨id, name⟩) c.lists) := by
  have sound := run.sound
  have stored := sound.stored?_eq live name
  have read : c.arena.findLocal? id name =
      Snapshot.expected ⟨id, name⟩ (c.last ⟨id, name⟩) c.lists := by
    rw [← stored]
    exact sound.mirrors.readUnder_eq id name
  refine ⟨read, stored, sound.mirrors.length_eq, ?_, ?_⟩
  · intro closed
    have none_open : c.lists = [] := by
      have hlength := sound.mirrors.length_eq
      rw [closed] at hlength
      exact List.length_eq_zero_iff.1 hlength
    rw [read, none_open]
    rfl
  · intro once
    rw [read]
    exact Snapshot.expected_eq_expectedFor _ fun l hl => sound.lastTurn?_eq live once name hl

/-- The second argument of a list, before which the first one wrote to a global binding, reads what
the binding was when the list was opened, also while it resolves a list of its own. -/
theorem findLocal?_sibling_write :
    let c : Chronicle Unit := start .strict [("x", .bool false)]
      |>.step .openArguments |>.step (.beginArgument 0) |>.step (.define global "x" (.bool true))
      |>.step (.beginArgument 1) |>.step .openArguments |>.step (.beginArgument 0)
    (∃ s, c.arena.scope? global = some s) ∧ c.arena.GivenOnce global ∧
      c.arena.findLocal? global "x" = some (.bool false) ∧
      c.arena.stored? global "x" = some (.bool true) := by
  intro c
  have run : c.Run := by
    refine .step (.step (.step (.step (.step (.step (.start _ _) _ ?_) _ ?_) _ ?_) _ ?_) _ ?_) _ ?_
    · trivial
    · rfl
    · intro l hl
      cases hl with
      | head => decide
      | tail _ h => cases h
    · rfl
    · trivial
    · rfl
  have once : c.arena.GivenOnce global :=
    ⟨_, [.openArguments, .beginArgument 0, .define global "x" (.bool true), .beginArgument 1,
      .openArguments, .beginArgument 0], .ofGlobals .strict [("x", .bool false)], rfl, rfl,
      by decide⟩
  obtain ⟨-, stored, -, -, read⟩ := findLocal?_eq_expected c run global _ rfl "x"
  exact ⟨⟨_, rfl⟩, once, (read once).trans rfl, stored.trans rfl⟩

/-- Activations that follow one another are no concern of the lists that are open. -/
theorem Run.turns {c : Chronicle ο} (run : c.Run) (index : Nat) (first : UInt32) (n : Nat) :
    ∃ d : Chronicle ο, d.Run ∧ d.arena = Operation.afterAll (Operation.turns index first n) c.arena ∧
      d.lists = c.lists := by
  induction n with
  | zero => exact ⟨c, run, rfl, rfl⟩
  | succ n ih =>
    obtain ⟨d, before, same, lists⟩ := ih
    refine ⟨_, (before.step (.pushFunction global) trivial).step
      (.popFunction ⟨index, first + UInt32.ofNat n⟩) trivial, ?_, lists⟩
    rw [arena_step, arena_step, same, Operation.turns, Operation.afterAll_append]
    rfl

/-- The onlooker may have seen generations come round, with one list open. -/
theorem exists_run_comeRound :
    ∃ c : Chronicle (Unit → Unit), c.Run ∧ c.arena = Operation.comeRound ∧
      ∀ l ∈ c.lists, l.opened = 1 := by
  have start : (start .strict [] : Chronicle (Unit → Unit)).Run := .start .strict []
  have bound := (start.step (.pushFunction global) trivial).step
    (.define ⟨1, 0⟩ "xs" (.array [.bool true, .bool false])) nofun
  have resolving := (bound.step .openArguments trivial).step (.beginArgument 0) rfl
  have written := resolving.step (.define ⟨1, 0⟩ "xs" (.array [])) fun l hl => by
    obtain rfl := List.mem_singleton.1 hl
    decide
  obtain ⟨c, run, arena, lists⟩ :=
    (written.step (.popFunction ⟨1, 0⟩) trivial).turns 1 1 (2 ^ 32 - 1)
  have arena : c.arena = Operation.left 0 (2 ^ 32) := arena.trans Operation.afterAll_turns_left
  have next := run.step (.beginArgument 1) (by rw [Allows, lists]; rfl)
  refine ⟨_, next.step (.pushFunction global) trivial, ?_, fun l hl => ?_⟩
  · rw [arena_step, arena_step, arena]
    rfl
  · have there : l ∈ c.lists.modifyHead Snapshot.begin := hl
    rw [lists] at there
    obtain rfl := List.mem_singleton.1 there
    rfl

/-- Then a scope reads as an older one did that had its handle, although no list is open that was
opened since it was made. -/
theorem not_findLocal?_eq_expectedFor :
    ¬ ∀ c : Chronicle (Unit → Unit), c.Run → ∀ id s, c.arena.scope? id = some s → ∀ name,
      c.arena.findLocal? id name =
        Snapshot.expectedFor s.created ⟨id, name⟩ (c.last ⟨id, name⟩) c.lists := by
  intro claimed
  obtain ⟨c, run, arena, opened⟩ := exists_run_comeRound
  obtain ⟨s, live⟩ : ∃ s, c.arena.scope? ⟨1, 0⟩ = some s := ⟨_, by rw [arena]; rfl⟩
  have made : s.created = 2 ^ 32 + 1 := by
    rw [arena] at live
    cases live
    rfl
  have stored : c.last ⟨⟨1, 0⟩, "xs"⟩ = none := by
    rw [← run.sound.stored?_eq live "xs", arena]
    rfl
  have reads : c.arena.findLocal? ⟨1, 0⟩ "xs" = some (.array [.bool true, .bool false]) := by
    rw [arena]
    rfl
  have unread := claimed c run ⟨1, 0⟩ s live "xs"
  rw [reads, stored, Snapshot.expectedFor_of_younger] at unread
  · cases unread
  · intro l hl
    rw [opened l hl, made]
    decide

end Chronicle

end Fluent

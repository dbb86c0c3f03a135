import Fluent.Proofs.Arena.Growth

/-!
# What an open argument list isolates

While an argument list is open, the argument being resolved reads every binding as it read when the
list was opened, unless that argument has itself written it. `Steady` says so of the list at some
depth of the journal, and every activity inside the argument keeps it so.

Main statements: `Activity.steady`, an argument keeps the list steady; `Steady.next`, the next argument
reads what there was to read before the list.
-/
namespace Fluent.Arena

open Value (Rearranged)

variable {ο : Type}

/-- The lists from some depth on are noted as they are noted alone. -/
theorem drop_fst_noteWrite (a : Arena ο) (created : Nat) (id : ScopeId) (name : String) (n : Nat)
    (journal : List Frame) :
    (a.noteWrite created id name journal).1.drop n =
      (a.noteWrite created id name (journal.drop n)).1 := by
  induction journal generalizing n with
  | nil => simp [noteWrite]
  | cons frame outer ih =>
    cases n with
    | zero => rfl
    | succ n =>
      rw [fst_noteWrite_cons, List.drop_succ_cons, List.drop_succ_cons]
      exact ih n

/-- A write leaves lists what they are, but for its place in those that are older than the scope. -/
theorem exists_of_mem_noteWrite {a : Arena ο} {created : Nat} {id : ScopeId} {name : String}
    {journal : List Frame} {frame : Frame} (h : frame ∈ (a.noteWrite created id name journal).1) :
    ∃ old ∈ journal, frame.opened = old.opened ∧ ∀ place w, frame.touched.find? place = some w →
      old.touched.find? place = some w ∨ place = ⟨id, name⟩ ∧ created ≤ old.opened := by
  induction journal with
  | nil => cases h
  | cons first outer ih =>
    rw [fst_noteWrite_cons, List.mem_cons] at h
    obtain rfl | h := h
    · refine ⟨first, by simp, by split <;> rfl, ?_⟩
      intro place w found
      split at found
      · exact .inl found
      · by_cases same : (⟨id, name⟩ : Place) = place
        · exact .inr ⟨same.symm, by omega⟩
        · rw [Frame.find?_touched_note_of_ne _ _ same] at found
          exact .inl found
    · obtain ⟨old, mem, rest⟩ := ih h
      exact ⟨old, by simp [mem], rest⟩

/-- The list was opened in the first arena. In the other one it hides what arguments before the
current one have written, and what it does not hide nobody has written since. -/
structure Isolates (a₀ : Arena ο) (more : Nat) (a : Arena ο) (list : Frame) (outer : List Frame) :
    Prop where
  opened : list.opened = a₀.clock
  outer_opened : ∀ frame ∈ outer, frame.opened ≤ a₀.clock
  touched : ∀ id name w, a₀.Lasting more id → list.touched.find? ⟨id, name⟩ = some w →
    w.prior = a₀.findLocal? id name ∧ w.writer ≤ list.current
  untouched : ∀ id name, a₀.Lasting more id → list.touched.find? ⟨id, name⟩ = none →
    a.readUnder outer id name = a₀.findLocal? id name

section

variable {a₀ a b : Arena ο} {more n : Nat} {list : Frame} {outer : List Frame}

/-- The scopes that last and the lists decide. -/
theorem Isolates.congr (h : a₀.Isolates more a list outer)
    (scopes : ∀ id, a₀.Lasting more id → b.scope? id = a.scope? id) :
    a₀.Isolates more b list outer where
  opened := h.opened
  outer_opened := h.outer_opened
  touched := h.touched
  untouched id name lasting none := by
    rw [readUnder_congr (scopes id lasting), h.untouched id name lasting none]

/-- The list takes note of a write with what the binding read as before the list. -/
theorem Isolates.written (h : a₀.Isolates more a list outer) (grown : a₀.Grown more a) {id : ScopeId}
    {s : Scope ο} (live : a.scope? id = some s) (name : String) (value : Value) :
    ∃ list' outer', (a.noteWrite s.created id name (list :: outer)).1 = list' :: outer' ∧
      a₀.Isolates more (a.written id s name value) list' outer' := by
  refine ⟨_, _, fst_noteWrite_cons a s.created id name list outer, ?_⟩
  constructor
  · split
    · exact h.opened
    · exact h.opened
  · intro frame hf
    obtain ⟨old, mem, opened, _⟩ := exists_of_mem_noteWrite hf
    exact opened ▸ h.outer_opened old mem
  · intro other n w lasting found
    split at found
    · rename_i newer
      simpa only [if_pos newer] using h.touched other n w lasting found
    · rename_i older
      rw [if_neg older, Frame.current_note]
      by_cases same : (⟨id, name⟩ : Place) = ⟨other, n⟩
      · cases same
        rw [Frame.find?_touched_note_self] at found
        cases found
        refine ⟨?_, Nat.le_refl _⟩
        cases known : list.touched.find? ⟨id, name⟩ with
        | none => exact h.untouched id name lasting known
        | some w => exact (h.touched id name w lasting known).1
      · rw [Frame.find?_touched_note_of_ne _ _ same] at found
        exact h.touched other n w lasting found
  · intro other n lasting none
    by_cases same : (⟨id, name⟩ : Place) = ⟨other, n⟩
    · -- the list is no newer than a scope that lasts, so it has taken note
      cases same
      have old := grown.created_le lasting live
      rw [if_neg (by rw [h.opened]; omega), Frame.find?_touched_note_self] at none
      cases none
    · rw [readUnder_written_of_ne live value same]
      refine h.untouched other n lasting ?_
      split at none
      · exact none
      · rwa [Frame.find?_touched_note_of_ne _ _ same] at none

/-- An argument list is open at this depth of the journal and isolates its arguments. Nothing that
lasts holds what does not, and a list knows only what lasts and what is older than the list. -/
structure Steady (a₀ : Arena ο) (more n : Nat) (a : Arena ο) : Prop where
  grown : a₀.Grown more a
  isolates : ∃ list outer, a.journal.drop n = list :: outer ∧ a₀.Isolates more a list outer
  clean : ∀ id name, a₀.Lasting more id → a.Every (a₀.Clean more) ⟨id, name⟩
  known : ∀ frame ∈ a.journal, ∀ place w, frame.touched.find? place = some w →
    a₀.Lasting more place.scope ∨ ∃ s, a.scope? place.scope = some s ∧ s.created ≤ frame.opened

theorem Steady.written (h : a₀.Steady more n a) {id : ScopeId} {s : Scope ο}
    (live : a.scope? id = some s) (name : String) {value : Value}
    (clean : a₀.Lasting more id → a₀.Clean more (some value)) :
    a₀.Steady more n (a.written id s name value) where
  grown := h.grown.written live name value
  isolates := by
    obtain ⟨list, outer, depth, isolates⟩ := h.isolates
    obtain ⟨list', outer', noted, isolates'⟩ := isolates.written h.grown live name value
    refine ⟨list', outer', ?_, isolates'⟩
    show (a.noteWrite s.created id name a.journal).1.drop n = _
    rw [drop_fst_noteWrite, depth, noted]
  clean other m lasting := by
    refine (h.clean other m lasting).written live ?_
    intro same
    cases same
    exact clean lasting
  known frame hf place w found := by
    obtain ⟨old, mem, opened, rest⟩ := exists_of_mem_noteWrite hf
    obtain known | ⟨rfl, older⟩ := rest place w found
    · obtain lasting | ⟨t, here, older⟩ := h.known old mem place w known
      · exact .inl lasting
      · obtain ⟨u, there, akin⟩ := akin_written live name value here
        exact .inr ⟨u, there, by rw [akin.created, opened]; exact older⟩
    · obtain ⟨u, there, akin⟩ := akin_written live name value live
      exact .inr ⟨u, there, by rw [akin.created, opened]; exact older⟩

theorem masked?_eq_none {place : Place} {journal : List Frame}
    (h : ∀ frame ∈ journal, frame.touched.find? place = none) : masked? place journal = none := by
  induction journal with
  | nil => rfl
  | cons frame outer ih =>
    rw [masked?, h frame (by simp)]
    exact ih fun f hf => h f (by simp [hf])

/-- What the current argument writes it reads, apart from lists that it has opened itself. -/
theorem Steady.readUnder_written (h : a₀.Steady more n a) {id : ScopeId} {s : Scope ο}
    (live : a.scope? id = some s) (name : String) (value : Value) :
    (a.written id s name value).readUnder (a.noteWrite s.created id name (a.journal.drop n)).1 id
      name = some value := by
  have stored : (a.written id s name value).stored? id name = some value := by
    rw [stored?_written live, if_pos rfl]
  obtain ⟨list, outer, depth, isolates⟩ := h.isolates
  rw [depth]
  by_cases old : s.created ≤ a₀.clock
  · have noted : ¬ list.opened < s.created := by
      rw [isolates.opened]
      omega
    simp only [readUnder, fst_noteWrite_cons, if_neg noted, masked?,
      Frame.find?_touched_note_self, Frame.current_note, if_true, Option.getD_none, stored]
  · -- no list that is older than the scope knows of it
    have unknown : masked? ⟨id, name⟩ (a.noteWrite s.created id name (list :: outer)).1 = none := by
      refine masked?_eq_none fun frame hf => ?_
      obtain ⟨known, mem, _, rest⟩ := exists_of_mem_noteWrite hf
      have opened : known.opened ≤ a₀.clock := by
        obtain rfl | mem := List.mem_cons.1 mem
        · exact Nat.le_of_eq isolates.opened
        · exact isolates.outer_opened known mem
      cases found : frame.touched.find? ⟨id, name⟩ with
      | none => rfl
      | some w =>
        obtain before | ⟨_, older⟩ := rest _ w found
        · have inside : known ∈ a.journal := List.mem_of_mem_drop (depth ▸ mem)
          obtain lasting | ⟨t, here, older⟩ := h.known known inside _ w before
          · exact absurd lasting (h.grown.not_lasting live (by omega))
          · rw [live] at here
            cases here
            omega
        · omega
    rw [readUnder, unknown, Option.getD_none, stored]

/-- Of scopes, those that last matter, and those that the lists know. -/
theorem Steady.of_scopes (h : a₀.Steady more n a) (grown : a₀.Grown more b)
    (journal : b.journal = a.journal)
    (lasting : ∀ id, a₀.Lasting more id → b.scope? id = a.scope? id)
    (older : ∀ frame ∈ a.journal, ∀ id s, a.scope? id = some s → s.created ≤ frame.opened →
      b.scope? id = some s) : a₀.Steady more n b where
  grown := grown
  isolates := by
    obtain ⟨list, outer, depth, isolates⟩ := h.isolates
    exact ⟨list, outer, journal ▸ depth, isolates.congr lasting⟩
  clean id name last := by
    obtain ⟨stored, priors⟩ := h.clean id name last
    refine ⟨?_, journal ▸ priors⟩
    simpa only [stored?, lasting id last] using stored
  known frame hf place w found := by
    rw [journal] at hf
    obtain last | ⟨s, here, old⟩ := h.known frame hf place w found
    · exact .inl last
    · exact .inr ⟨s, older frame hf _ s here old, old⟩

/-- A call has been entered. Its scope is new and has nothing bound in it, no handle that lasts
means it and no list knows of it. -/
structure Entered (a₀ : Arena ο) (more n : Nat) (parent frame : ScopeId) (a b : Arena ο) : Prop where
  steady : a₀.Steady more n b
  scopes : ∀ id, b.scope? id =
    if id = frame then some { blank .function (some parent) with created := a.clock + 1 }
    else a.scope? id
  clock : b.clock = a.clock + 1
  journal : b.journal = a.journal
  unknown : a.scope? frame = none
  passing : ¬ a₀.Lasting more frame
  untouched : ∀ name, ∀ list ∈ a.journal, list.touched.find? ⟨frame, name⟩ = none

theorem Entered.scope?_frame {parent frame : ScopeId} (h : a₀.Entered more n parent frame a b) :
    b.scope? frame = some { blank .function (some parent) with created := a.clock + 1 } := by
  rw [h.scopes, if_pos rfl]

theorem Entered.ne_frame {parent frame id : ScopeId} {s : Scope ο}
    (h : a₀.Entered more n parent frame a b) (live : a.scope? id = some s) : id ≠ frame := by
  rintro rfl
  rw [h.unknown] at live
  cases live

theorem Steady.entered (h : a₀.Steady more n a) {parent frame : ScopeId}
    (made : a.allocate (blank .function (some parent)) = (frame, b))
    (clock : a.clock < a₀.clock + more) : a₀.Entered more n parent frame a b := by
  have wf := h.grown.wellFormed
  have past := h.grown.changes.clock_le
  have grown := h.grown.pushed made clock
  have scopes := wf.scope?_of_allocate_eq made
  have journal : b.journal = a.journal := (Turnover.of_allocate_eq (by simp) made).journal_eq
  have next := a.clock_allocate (blank .function (some parent))
  have unknown := wf.scope?_fst_allocate (blank .function (some parent))
  rw [made] at next unknown
  have own := scopes frame
  rw [if_pos rfl] at own
  have passing : ¬ a₀.Lasting more frame :=
    grown.not_lasting own (by show a₀.clock < a.clock + 1; omega)
  refine ⟨h.of_scopes grown journal ?_ ?_, scopes, next, journal, unknown, passing, ?_⟩
  · intro id lasting
    rw [scopes, if_neg]
    rintro rfl
    exact passing lasting
  · intro _ _ id s here _
    rw [scopes, if_neg, here]
    rintro rfl
    rw [here] at unknown
    cases unknown
  · intro name list hl
    cases found : list.touched.find? ⟨frame, name⟩ with
    | none => rfl
    | some w =>
      obtain lasting | ⟨t, here, _⟩ := h.known list hl _ w found
      · exact absurd lasting passing
      · rw [unknown] at here
        cases here

theorem Steady.popped (h : a₀.Steady more n a) {frame : ScopeId} {s : Scope ο}
    (live : a.scope? frame = some s) (function : s.kind = .function) (new : a₀.clock < s.created)
    (newest : ∀ list ∈ a.journal, list.opened < s.created) :
    a₀.Steady more n (a.release frame.index) := by
  refine h.of_scopes (h.grown.popped live function new) rfl ?_ ?_
  · intro id lasting
    refine scope?_release_of_ne live ?_
    rintro rfl
    exact h.grown.not_lasting live new lasting
  · intro list hl id t here old
    rw [scope?_release_of_ne live, here]
    rintro rfl
    rw [live] at here
    cases here
    have later := newest list hl
    omega

theorem Steady.fills (h : a₀.Steady more n a) {frame : ScopeId} (fills : Fills frame a b)
    {s : Scope ο} (live : a.scope? frame = some s) (new : a₀.clock < s.created) :
    a₀.Steady more n b ∧ ∃ t, b.scope? frame = some t ∧ s.Akin t := by
  induction fills with
  | refl => exact ⟨h, s, live, .refl s⟩
  | tail _ fill ih =>
    obtain ⟨steady, t, there, akin⟩ := ih
    obtain ⟨own, name, value, here, rfl⟩ := fill
    obtain ⟨u, after, akin'⟩ := akin_written here name value there
    refine ⟨steady.written here name fun lasting => ?_, u, after, akin.trans akin'⟩
    exact absurd lasting (steady.grown.not_lasting there (akin.created ▸ new))

theorem Steady.openArguments (h : a₀.Steady more n a) : a₀.Steady more (n + 1) a.openArguments where
  grown := h.grown.of_change .openArguments rfl rfl fun _ => rfl
  isolates := by
    obtain ⟨list, outer, depth, isolates⟩ := h.isolates
    exact ⟨list, outer, depth, isolates.congr fun _ _ => rfl⟩
  clean id name lasting := by
    obtain ⟨stored, priors⟩ := h.clean id name lasting
    refine ⟨stored, fun frame hf w found => ?_⟩
    obtain rfl | hf := List.mem_cons.1 hf
    · cases found
    · exact priors frame hf w found
  known frame hf place w found := by
    obtain rfl | hf := List.mem_cons.1 hf
    · cases found
    · exact h.known frame hf place w found

theorem Steady.closeArguments (h : a₀.Steady more (n + 1) a) : a₀.Steady more n a.closeArguments where
  grown := h.grown.of_change .closeArguments rfl rfl fun _ => rfl
  isolates := by
    obtain ⟨list, outer, depth, isolates⟩ := h.isolates
    refine ⟨list, outer, ?_, isolates.congr fun _ _ => rfl⟩
    show a.journal.tail.drop n = _
    rw [← List.drop_one, List.drop_drop, Nat.add_comm, depth]
  clean id name lasting := by
    obtain ⟨stored, priors⟩ := h.clean id name lasting
    exact ⟨stored, fun frame hf => priors frame (List.mem_of_mem_tail hf)⟩
  known frame hf := h.known frame (List.mem_of_mem_tail hf)

/-- Which argument is being resolved makes a difference to the innermost list alone. -/
theorem Steady.of_beginArgument (h : a₀.Steady more n a) (index : Nat)
    (isolates : ∃ list outer, (a.beginArgument index).journal.drop n = list :: outer ∧
      a₀.Isolates more a list outer) : a₀.Steady more n (a.beginArgument index) := by
  have scopes : ∀ id, (a.beginArgument index).scope? id = a.scope? id := by simp
  constructor
  · exact h.grown.of_change (.beginArgument index) (a.clock_beginArgument index)
      (a.policy_beginArgument index) scopes
  · obtain ⟨list, outer, depth, isolates⟩ := isolates
    exact ⟨list, outer, depth, isolates.congr fun id _ => scopes id⟩
  · intro id name lasting
    obtain ⟨stored, priors⟩ := h.clean id name lasting
    refine ⟨by simpa only [stored?, scopes] using stored, fun frame hf w found => ?_⟩
    obtain ⟨old, mem, _, touched⟩ := exists_of_mem_beginArgument hf
    exact priors old mem w (touched ▸ found)
  · intro frame hf place w found
    obtain ⟨old, mem, opened, touched⟩ := exists_of_mem_beginArgument hf
    rw [opened, scopes]
    exact h.known old mem place w (touched ▸ found)

theorem Steady.beginArgument (h : a₀.Steady more (n + 1) a) (index : Nat) :
    a₀.Steady more (n + 1) (a.beginArgument index) := by
  refine h.of_beginArgument index ?_
  obtain ⟨list, outer, depth, isolates⟩ := h.isolates
  refine ⟨list, outer, ?_, isolates⟩
  cases hj : a.journal with
  | nil => simp [hj] at depth
  | cons first rest => simpa [Arena.beginArgument, hj] using depth

/-- The argument of a list that an activity is inside of keeps the list steady. -/
theorem Activity.steady {within : Bool} (h : Activity False within a b)
    (inside : within = true → 0 < n) (steady : a₀.Steady more n a)
    (clock : b.clock ≤ a₀.clock + more) : a₀.Steady more n b := by
  induction h generalizing n with
  | idle => exact steady
  | @trans _ a b c first second ih ih' =>
    have wf := steady.grown.wellFormed
    have later := (second.changes (first.wellFormed wf)).clock_le
    exact ih' inside (ih inside steady (by omega)) clock
  | @shuffle _ a id s name value live same =>
    refine steady.written live name fun lasting => ?_
    have read := (steady.clean id name lasting).readUnder a.journal fun _ hf => hf
    exact a₀.upToOrder_clean more _ _ read same
  | object allowed held made filled => exact allowed.elim
  | @call _ a b c d parent frame live made bound body ih =>
    have wf := steady.grown.wellFormed
    have past := steady.grown.changes.clock_le
    have opened : Change a b := .turnover (.of_allocate_eq (by simp) made)
    have wfc := (Changes.wellFormed (.head opened bound.changes) wf)
    have later := Changes.clock_le (bound.changes.trans (body.changes wfc))
    have next : b.clock = a.clock + 1 := by
      have next := a.clock_allocate (blank .function (some parent))
      rwa [made] at next
    have entered := steady.entered made (by simp only [clock_release] at clock; omega)
    obtain ⟨filled, _⟩ :=
      entered.steady.fills bound entered.scope?_frame (by show a₀.clock < a.clock + 1; omega)
    have ended := ih (fun h => by cases h) filled clock
    obtain ⟨u, here, function, created, newest⟩ := wf.exists_newest_frame made bound body
    exact ended.popped here function (by omega) newest
  | list arguments ih =>
    exact (ih (fun _ => Nat.succ_pos n) steady.openArguments clock).closeArguments
  | begin index =>
    obtain ⟨n, rfl⟩ : ∃ m, n = m + 1 := ⟨n - 1, by have := inside rfl; omega⟩
    exact steady.beginArgument index

/-- Every binding that lasts reads as it does in the first arena. -/
def Unwritten (a₀ : Arena ο) (more : Nat) (a : Arena ο) : Prop :=
  ∀ id name, a₀.Lasting more id → a.findLocal? id name = a₀.findLocal? id name

/-- When an argument list has just been opened, there is nothing to hide. -/
theorem steady_openArguments (wf : a₀.WellFormed)
    (mentions : ∀ id, a₀.Mentions id → a₀.Lasting more id) :
    a₀.Steady more 0 a₀.openArguments where
  grown := (Grown.refl wf more).of_change .openArguments rfl rfl fun _ => rfl
  isolates := by
    refine ⟨{ opened := a₀.clock }, a₀.journal, rfl, ?_⟩
    constructor
    · rfl
    · exact wf.opened_le
    · intro id name w _ found
      cases found
    · exact fun _ _ _ _ => rfl
  clean id name _ := by
    refine ⟨fun v stored other refers => mentions other (.stored stored refers), ?_⟩
    intro frame hf w found v prior other refers
    obtain rfl | hf := List.mem_cons.1 hf
    · cases found
    · exact mentions other (.prior hf found prior refers)
  known frame hf place w found := by
    obtain rfl | hf := List.mem_cons.1 hf
    · cases found
    · exact .inl (mentions _ (.touched hf found))

/-- An argument reads what there was to read before the list, whatever the arguments before it have
written, so long as it comes after them. -/
theorem Steady.next (h : a₀.Steady more 0 a) {index : Nat}
    (later : ∀ list outer, a.journal = list :: outer → ∀ id name w, a₀.Lasting more id →
      list.touched.find? ⟨id, name⟩ = some w → w.writer < index) :
    a₀.Steady more 0 (a.beginArgument index) ∧ a₀.Unwritten more (a.beginArgument index) := by
  obtain ⟨list, outer, depth, isolates⟩ := h.isolates
  have hj : a.journal = list :: outer := depth
  have begun : (a.beginArgument index).journal = { list with current := index } :: outer := by
    simp only [Arena.beginArgument, hj]
  have scopes : ∀ id, (a.beginArgument index).scope? id = a.scope? id := by simp
  constructor
  · refine h.of_beginArgument index ⟨_, _, begun, isolates.opened, isolates.outer_opened, ?_, ?_⟩
    · intro id name w lasting found
      have writer := later list outer hj id name w lasting found
      exact ⟨(isolates.touched id name w lasting found).1, Nat.le_of_lt writer⟩
    · exact isolates.untouched
  · intro id name lasting
    rw [findLocal?, begun, readUnder_congr (scopes id)]
    cases found : list.touched.find? ⟨id, name⟩ with
    | none =>
      rw [← isolates.untouched id name lasting found]
      simp only [readUnder, masked?, found]
    | some w =>
      have writer := later list outer hj id name w lasting found
      have other : w.writer ≠ index := by omega
      rw [← (isolates.touched id name w lasting found).1]
      simp [readUnder, masked?, found, other]

/-- After an argument the next one reads what there was to read before the list. -/
theorem Steady.next_after {index : Nat} (h : a₀.Steady more 0 (a.beginArgument index))
    (argument : Activity False false (a.beginArgument index) b)
    (clock : b.clock ≤ a₀.clock + more) :
    a₀.Steady more 0 (b.beginArgument (index + 1)) ∧
      a₀.Unwritten more (b.beginArgument (index + 1)) := by
  have ended := argument.steady (by simp) h clock
  refine ended.next fun list outer hj id name w lasting found => ?_
  obtain ⟨list', outer', depth, isolates⟩ := ended.isolates
  have same : list' :: outer' = list :: outer := depth.symm.trans hj
  cases same
  have writer := (isolates.touched id name w lasting found).2
  -- the list is still at the argument that was begun
  have lists := argument.openLists_eq
  obtain ⟨first, rest, open_, _⟩ := h.isolates
  cases before : a.journal with
  | nil => simp [Arena.beginArgument, before] at open_
  | cons frame frames =>
    simp only [openLists, hj, Arena.beginArgument, before, List.map_cons, List.cons.injEq,
      Prod.mk.injEq] at lists
    omega

end

end Fluent.Arena

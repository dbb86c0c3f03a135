import Mathlib.Data.Option.Basic
import Fluent.Proofs.Arena.Isolation
import Fluent.Proofs.Arena.Search

/-!
# Two arenas that an argument cannot tell apart

The same argument is resolved in two arenas that have come from one: after other arguments of its
list in the first, and as the only argument of its list in the second. The arenas hold different
values, and the scopes of calls have different handles in them. Every operation of the argument
still does the same to both, and finds the same in both.

Main statements: `Twins.findLocal?_eq` and `Twins.resolve?`, the arenas read alike; `Twins.written`,
`Twins.pushed` and `Twins.popped`, and they stay alike.
-/
namespace Fluent.Arena

variable {ο : Type}

/-- What stands for the same scope in two arenas: the scopes of one call, or a handle that lasts and
itself. -/
def Matches (a₀ : Arena ο) (more : Nat) (frames : List (ScopeId × ScopeId)) (id id' : ScopeId) :
    Prop :=
  (id, id') ∈ frames ∨ id = id' ∧ a₀.Lasting more id

/-- Two live scopes that stand for the same: both were there, or both were made by the same call, in
the second arena so much earlier. -/
structure Mates (a₀ : Arena ο) (more offset : Nat) (s t : Scope ο) : Prop where
  parent : s.parent = t.parent
  lasting : ∀ p, s.parent = some p → a₀.Lasting more p
  created : (s.created ≤ a₀.clock ∧ t.created ≤ a₀.clock) ∨
    (s.created = t.created + offset ∧ a₀.clock < t.created)

theorem Mates.of_akin {a₀ : Arena ο} {more offset : Nat} {s t s' t' : Scope ο}
    (h : Mates a₀ more offset s t) (akin : s.Akin s') (akin' : t.Akin t') :
    Mates a₀ more offset s' t' := by
  refine ⟨?_, ?_, ?_⟩
  · rw [akin.parent, akin'.parent, h.parent]
  · rw [akin.parent]
    exact h.lasting
  · rw [akin.created, akin'.created]
    exact h.created

/-- Two lists opened at the same point of the argument, at the same argument of theirs, with the
same writes in them. What was written while they were open is stored alike. -/
structure Abreast (a₀ : Arena ο) (more : Nat) (frames : List (ScopeId × ScopeId)) (offset : Nat)
    (x y : Arena ο) (f f' : Frame) : Prop where
  opened : f.opened = f'.opened + offset
  later : a₀.clock ≤ f'.opened
  current : f.current = f'.current
  touched : ∀ id id' name, a₀.Matches more frames id id' →
    f.touched.find? ⟨id, name⟩ = f'.touched.find? ⟨id', name⟩
  stored : ∀ id id' name, a₀.Matches more frames id id' →
    (f.touched.find? ⟨id, name⟩).isSome = true → x.stored? id name = y.stored? id' name

/-- Journals whose innermost lists, so many of them, go together, and under whose other lists what
stands for the same reads alike. -/
inductive Paired (a₀ : Arena ο) (more : Nat) (frames : List (ScopeId × ScopeId)) (offset : Nat)
    (x y : Arena ο) : Nat → List Frame → List Frame → Prop where
  | base {journal journal' : List Frame}
      (same : ∀ id id' name, a₀.Matches more frames id id' →
        x.readUnder journal id name = y.readUnder journal' id' name) :
      Paired a₀ more frames offset x y 0 journal journal'
  | nested {n : Nat} {f f' : Frame} {journal journal' : List Frame}
      (head : Abreast a₀ more frames offset x y f f')
      (inner : Paired a₀ more frames offset x y n journal journal') :
      Paired a₀ more frames offset x y (n + 1) (f :: journal) (f' :: journal')

/-- The two arenas cannot be told apart by an argument that has so many lists open, and that is
inside calls with these scopes. -/
structure Twins (a₀ : Arena ο) (more offset : Nat) (frames : List (ScopeId × ScopeId)) (n : Nat)
    (x y : Arena ο) : Prop where
  left : a₀.Steady more n x
  right : a₀.Steady more n y
  parents : ∀ id s p, a₀.scope? id = some s → s.parent = some p → a₀.Lasting more p
  clock : x.clock = y.clock + offset
  calls : ∀ f f', (f, f') ∈ frames → ∃ s t, x.scope? f = some s ∧ y.scope? f' = some t ∧
    s.kind = .function ∧ t.kind = .function ∧ a₀.clock < t.created ∧ Mates a₀ more offset s t
  distinct : ∀ f f' g g', (f, f') ∈ frames → (g, g') ∈ frames → (f = g ↔ f' = g')
  clean : ∀ f f', (f, f') ∈ frames → ∀ name, x.Every (a₀.Clean more) ⟨f, name⟩
  journals : Paired a₀ more frames offset x y n x.journal y.journal

section

variable {a₀ x y : Arena ο} {more offset n : Nat} {frames : List (ScopeId × ScopeId)}
  {id id' : ScopeId}

/-- What stands for the same reads alike under paired journals. -/
theorem Paired.readUnder_eq {journal journal' : List Frame}
    (h : Paired a₀ more frames offset x y n journal journal') (m : a₀.Matches more frames id id')
    (name : String) : x.readUnder journal id name = y.readUnder journal' id' name := by
  induction h with
  | base same => exact same id id' name m
  | @nested n f f' journal journal' head inner ih =>
    have touched := head.touched id id' name m
    have stored := head.stored id id' name m
    simp only [readUnder, masked?] at ih ⊢
    rw [← touched, ← head.current]
    cases found : f.touched.find? ⟨id, name⟩ with
    | none => exact ih
    | some w =>
      rw [found] at stored
      by_cases own : w.writer = f.current
      · simpa [own] using stored rfl
      · simp [own]

theorem Twins.findLocal?_eq (h : Twins a₀ more offset frames n x y)
    (m : a₀.Matches more frames id id') (name : String) :
    x.findLocal? id name = y.findLocal? id' name :=
  h.journals.readUnder_eq m name

/-- What is read mentions only what lasts. -/
theorem Twins.clean_findLocal? (h : Twins a₀ more offset frames n x y)
    (m : a₀.Matches more frames id id') (name : String) : a₀.Clean more (x.findLocal? id name) := by
  have every : x.Every (a₀.Clean more) ⟨id, name⟩ := by
    obtain call | ⟨_, lasting⟩ := m
    · exact h.clean id id' call name
    · exact h.left.clean id name lasting
  exact every.readUnder x.journal fun _ hf => hf

/-- What stands for the same is live in both arenas or in none. -/
theorem Twins.scopes (h : Twins a₀ more offset frames n x y) (m : a₀.Matches more frames id id') :
    (x.scope? id = none ∧ y.scope? id' = none) ∨
      ∃ s t, x.scope? id = some s ∧ y.scope? id' = some t ∧ Mates a₀ more offset s t := by
  obtain call | ⟨rfl, lasting⟩ := m
  · obtain ⟨s, t, here, there, _, _, _, mates⟩ := h.calls id id' call
    exact .inr ⟨s, t, here, there, mates⟩
  · cases first : a₀.scope? id with
    | none =>
      left
      constructor
      · cases here : x.scope? id with
        | none => rfl
        | some s =>
          obtain ⟨r, was, _⟩ := h.left.grown.of_lasting lasting here
          rw [first] at was
          cases was
      · cases there : y.scope? id with
        | none => rfl
        | some t =>
          obtain ⟨r, was, _⟩ := h.right.grown.of_lasting lasting there
          rw [first] at was
          cases was
    | some r =>
      obtain ⟨s, here, akin⟩ := h.left.grown.kept id r first
      obtain ⟨t, there, akin'⟩ := h.right.grown.kept id r first
      refine .inr ⟨s, t, here, there, akin.parent.trans akin'.parent.symm, ?_, .inl ⟨?_, ?_⟩⟩
      · intro p hp
        exact h.parents id r p first (akin.parent ▸ hp)
      · exact h.left.grown.created_le lasting here
      · exact h.right.grown.created_le lasting there

/-- What stands for one scope stands for no other. -/
theorem Twins.eq_iff (h : Twins a₀ more offset frames n x y) (m : a₀.Matches more frames id id')
    {other other' : ScopeId} (m' : a₀.Matches more frames other other') :
    id = other ↔ id' = other' := by
  -- the scopes of calls do not last, so they are different from what does
  have apart : ∀ f f', (f, f') ∈ frames → ¬ a₀.Lasting more f ∧ ¬ a₀.Lasting more f' := by
    intro f f' call
    obtain ⟨s, t, here, there, _, _, new, mates⟩ := h.calls f f' call
    refine ⟨h.left.grown.not_lasting here ?_, h.right.grown.not_lasting there new⟩
    have created := mates.created
    omega
  obtain call | ⟨rfl, lasting⟩ := m
  · obtain call' | ⟨rfl, lasting'⟩ := m'
    · exact h.distinct _ _ _ _ call call'
    · constructor
      · rintro rfl
        exact absurd lasting' (apart _ _ call).1
      · rintro rfl
        exact absurd lasting' (apart _ _ call).2
  · obtain call' | ⟨rfl, lasting'⟩ := m'
    · constructor
      · rintro rfl
        exact absurd lasting (apart _ _ call').1
      · rintro rfl
        exact absurd lasting (apart _ _ call').2
    · exact Iff.rfl

/-- The search goes the same way in both arenas. -/
theorem Twins.resolveWithin? (h : Twins a₀ more offset frames n x y) (name : String) (bound : Nat)
    (m : a₀.Matches more frames id id') :
    Option.Rel (a₀.Matches more frames) (x.resolveWithin? name bound id)
      (y.resolveWithin? name bound id') := by
  induction bound generalizing id id' with
  | zero => exact .none
  | succ bound ih =>
    rw [Arena.resolveWithin?, Arena.resolveWithin?, ← h.findLocal?_eq m]
    obtain ⟨here, there⟩ | ⟨s, t, here, there, mates⟩ := h.scopes m
    · rw [here, there]
      exact .none
    · simp only [here, there]
      split
      · exact .some m
      · rw [← mates.parent]
        cases hp : s.parent with
        | none => exact .none
        | some p => exact ih (.inr ⟨rfl, mates.lasting p hp⟩)

/-- Names are found in scopes that stand for the same. In the first arena the search has the larger
bound, which makes no difference. -/
theorem Twins.resolve? (h : Twins a₀ more offset frames n x y) (name : String)
    (m : a₀.Matches more frames id id') :
    Option.Rel (a₀.Matches more frames) (x.resolve? id name) (y.resolve? id' name) := by
  have clock := h.clock
  have larger : y.clock + 1 ≤ x.clock + 1 := by omega
  rw [← h.right.grown.wellFormed.resolveWithin?_eq larger]
  exact h.resolveWithin? name (x.clock + 1) m

theorem place_eq_iff
    (distinct : ∀ other other', a₀.Matches more frames other other' → (id = other ↔ id' = other'))
    (name : String) {other other' : ScopeId} (p : String) (m : a₀.Matches more frames other other') :
    (⟨id, name⟩ : Place) = ⟨other, p⟩ ↔ (⟨id', name⟩ : Place) = ⟨other', p⟩ := by
  simp only [Place.mk.injEq, distinct other other' m]

/-- Lists that are abreast stay so when both take note of the same write, or neither does. -/
theorem Abreast.written {f f' : Frame} (h : Abreast a₀ more frames offset x y f f')
    (distinct : ∀ other other', a₀.Matches more frames other other' → (id = other ↔ id' = other'))
    {s t : Scope ο} (live : x.scope? id = some s) (live' : y.scope? id' = some t)
    (mates : Mates a₀ more offset s t) (name : String) (value : Value) (prior : Option Value) :
    Abreast a₀ more frames offset (x.written id s name value) (y.written id' t name value)
      (if f.opened < s.created then f else f.note ⟨id, name⟩ prior)
      (if f'.opened < t.created then f' else f'.note ⟨id', name⟩ prior) := by
  have stored : ∀ other other' p, a₀.Matches more frames other other' →
      ((⟨id, name⟩ : Place) = ⟨other, p⟩ ∨ (f.touched.find? ⟨other, p⟩).isSome = true) →
      (x.written id s name value).stored? other p =
        (y.written id' t name value).stored? other' p := by
    intro other other' p m touched
    rw [stored?_written live, stored?_written live']
    by_cases own : (⟨id, name⟩ : Place) = ⟨other, p⟩
    · rw [if_pos own, if_pos ((place_eq_iff distinct name p m).1 own)]
    · rw [if_neg own, if_neg fun e => own ((place_eq_iff distinct name p m).2 e)]
      exact h.stored other other' p m (touched.resolve_left own)
  -- the scopes are both newer than the lists, or neither is
  have isolated : f.opened < s.created ↔ f'.opened < t.created := by
    have opened := h.opened
    have later := h.later
    have created := mates.created
    omega
  by_cases newer : f.opened < s.created
  · rw [if_pos newer, if_pos (isolated.1 newer)]
    exact { h with stored := fun other other' p m found => stored other other' p m (.inr found) }
  rw [if_neg newer, if_neg fun e => newer (isolated.2 e)]
  refine ⟨h.opened, h.later, h.current, ?_, ?_⟩
  · intro other other' p m
    by_cases own : (⟨id, name⟩ : Place) = ⟨other, p⟩
    · have own' := (place_eq_iff distinct name p m).1 own
      cases own
      cases own'
      rw [Frame.find?_touched_note_self, Frame.find?_touched_note_self, h.touched _ _ name m,
        h.current]
    · have own' := fun e => own ((place_eq_iff distinct name p m).2 e)
      rw [Frame.find?_touched_note_of_ne _ _ own, Frame.find?_touched_note_of_ne _ _ own']
      exact h.touched other other' p m
  · intro other other' p m found
    by_cases own : (⟨id, name⟩ : Place) = ⟨other, p⟩
    · exact stored other other' p m (.inl own)
    · rw [Frame.find?_touched_note_of_ne _ _ own] at found
      exact stored other other' p m (.inr found)

/-- The same write to what stands for the same is noted alike. -/
theorem Paired.written {journal journal' : List Frame}
    (h : Paired a₀ more frames offset x y n journal journal') (m : a₀.Matches more frames id id')
    (distinct : ∀ other other', a₀.Matches more frames other other' → (id = other ↔ id' = other'))
    {s t : Scope ο} (live : x.scope? id = some s) (live' : y.scope? id' = some t)
    (mates : Mates a₀ more offset s t) (name : String) (value : Value)
    (reads : (x.written id s name value).readUnder
      (x.noteWrite s.created id name (journal.drop n)).1 id name = some value)
    (reads' : (y.written id' t name value).readUnder
      (y.noteWrite t.created id' name (journal'.drop n)).1 id' name = some value) :
    Paired a₀ more frames offset (x.written id s name value) (y.written id' t name value) n
      (x.noteWrite s.created id name journal).1 (y.noteWrite t.created id' name journal').1 := by
  induction h with
  | base same =>
    refine .base fun other other' p hm => ?_
    by_cases own : (⟨id, name⟩ : Place) = ⟨other, p⟩
    · have own' := (place_eq_iff distinct name p hm).1 own
      cases own
      cases own'
      exact reads.trans reads'.symm
    · have own' := fun e => own ((place_eq_iff distinct name p hm).2 e)
      rw [readUnder_written_of_ne live value own, readUnder_written_of_ne live' value own']
      exact same other other' p hm
  | @nested n f f' journal journal' head inner ih =>
    rw [fst_noteWrite_cons, fst_noteWrite_cons, inner.readUnder_eq m name]
    exact .nested (head.written distinct live live' mates name value _) (ih reads reads')

/-- The same write to what stands for the same. -/
theorem Twins.written (h : Twins a₀ more offset frames n x y) (m : a₀.Matches more frames id id')
    {s t : Scope ο} (live : x.scope? id = some s) (live' : y.scope? id' = some t)
    (mates : Mates a₀ more offset s t) (name : String) {value : Value}
    (clean : a₀.Clean more (some value)) :
    Twins a₀ more offset frames n (x.written id s name value) (y.written id' t name value) where
  left := h.left.written live name fun _ => clean
  right := h.right.written live' name fun _ => clean
  parents := h.parents
  clock := h.clock
  calls f f' call := by
    obtain ⟨u, v, here, there, kind, kind', new, mates'⟩ := h.calls f f' call
    obtain ⟨u', after, akin⟩ := akin_written live name value here
    obtain ⟨v', after', akin'⟩ := akin_written live' name value there
    exact ⟨u', v', after, after', akin.kind.trans kind, akin'.kind.trans kind',
      akin'.created ▸ new, mates'.of_akin akin akin'⟩
  distinct := h.distinct
  clean f f' call p := (h.clean f f' call p).written live fun _ => clean
  journals := h.journals.written m (fun _ _ hm => h.eq_iff m hm) live live' mates name value
    (h.left.readUnder_written live name value) (h.right.readUnder_written live' name value)

theorem Paired.exists_cons {journal journal' : List Frame}
    (h : Paired a₀ more frames offset x y (n + 1) journal journal') :
    ∃ f f' rest rest', journal = f :: rest ∧ journal' = f' :: rest' ∧
      Abreast a₀ more frames offset x y f f' ∧ Paired a₀ more frames offset x y n rest rest' := by
  cases h with
  | nested head inner => exact ⟨_, _, _, _, rfl, rfl, head, inner⟩

/-- Journals stay paired if what stands for the same stood for the same and has not changed, or is
stored alike and unknown to the lists. -/
theorem Paired.of_matches {x' y' : Arena ο} {frames' : List (ScopeId × ScopeId)}
    {journal journal' : List Frame} (h : Paired a₀ more frames offset x y n journal journal')
    (same : ∀ id id', a₀.Matches more frames' id id' →
      (a₀.Matches more frames id id' ∧ x'.scope? id = x.scope? id ∧ y'.scope? id' = y.scope? id') ∨
        ∀ name, x'.stored? id name = y'.stored? id' name ∧
          (∀ f ∈ journal, f.touched.find? ⟨id, name⟩ = none) ∧
          ∀ f ∈ journal', f.touched.find? ⟨id', name⟩ = none) :
    Paired a₀ more frames' offset x' y' n journal journal' := by
  induction h with
  | @base journal journal' reads =>
    refine .base fun id id' name m => ?_
    obtain ⟨before, here, there⟩ | unknown := same id id' m
    · rw [readUnder_congr here, readUnder_congr there, reads id id' name before]
    · obtain ⟨stored, none, none'⟩ := unknown name
      simp only [readUnder, masked?_eq_none none, masked?_eq_none none', stored]
  | @nested n f f' journal journal' head inner ih =>
    refine .nested ⟨head.opened, head.later, head.current, ?_, ?_⟩ (ih ?_)
    · intro id id' name m
      obtain ⟨before, _, _⟩ | unknown := same id id' m
      · exact head.touched id id' name before
      · obtain ⟨_, none, none'⟩ := unknown name
        rw [none f (by simp), none' f' (by simp)]
    · intro id id' name m found
      obtain ⟨before, here, there⟩ | unknown := same id id' m
      · simpa only [stored?, here, there] using head.stored id id' name before found
      · exact (unknown name).1
    · intro id id' m
      obtain before | unknown := same id id' m
      · exact .inl before
      · refine .inr fun name => ?_
        obtain ⟨stored, none, none'⟩ := unknown name
        exact ⟨stored, fun g hg => none g (by simp [hg]), fun g hg => none' g (by simp [hg])⟩

/-- The scopes of a call that is entered are different from those of the calls around it. -/
theorem Twins.apart {x' y' : Arena ο} (h : Twins a₀ more offset frames n x y)
    {parent frame frame' : ScopeId} (entered : a₀.Entered more n parent frame x x')
    (entered' : a₀.Entered more n parent frame' y y') :
    ∀ g g', (g, g') ∈ frames → g ≠ frame ∧ g' ≠ frame' := by
  intro g g' call
  obtain ⟨s, t, here, there, _⟩ := h.calls g g' call
  exact ⟨entered.ne_frame here, entered'.ne_frame there⟩

/-- What stands for the same outside the call stands for neither of its scopes. -/
theorem Matches.ne_frames {frame frame' : ScopeId} (m : a₀.Matches more frames id id')
    (apart : ∀ g g', (g, g') ∈ frames → g ≠ frame ∧ g' ≠ frame')
    (passing : ¬ a₀.Lasting more frame) (passing' : ¬ a₀.Lasting more frame') :
    id ≠ frame ∧ id' ≠ frame' := by
  obtain call | ⟨rfl, lasting⟩ := m
  · exact apart id id' call
  · constructor
    · rintro rfl
      exact passing lasting
    · rintro rfl
      exact passing' lasting

theorem Entered.every {parent frame : ScopeId} (h : a₀.Entered more n parent frame x y)
    (name : String) : y.Every (a₀.Clean more) ⟨frame, name⟩ := by
  constructor
  · have empty : y.stored? frame name = none := by
      rw [stored?, h.scope?_frame]
      rfl
    rw [empty]
    exact a₀.clean_none more
  · intro list hl w found
    rw [h.journal] at hl
    rw [h.untouched name list hl] at found
    cases found

/-- The lists know of neither scope of a call that is entered, and nothing is bound in them. -/
theorem Twins.paired_of_entered {x' y' : Arena ο} (h : Twins a₀ more offset frames n x y)
    {parent frame frame' : ScopeId} (entered : a₀.Entered more n parent frame x x')
    (entered' : a₀.Entered more n parent frame' y y') :
    Paired a₀ more ((frame, frame') :: frames) offset x' y' n x.journal y.journal := by
  refine h.journals.of_matches fun id id' m => ?_
  by_cases call : (id, id') = (frame, frame')
  · cases call
    refine .inr fun name => ⟨?_, entered.untouched name, entered'.untouched name⟩
    rw [stored?, stored?, entered.scope?_frame, entered'.scope?_frame]
    rfl
  · have before : a₀.Matches more frames id id' :=
      m.imp_left fun calls => (List.mem_cons.1 calls).resolve_left call
    obtain ⟨other, other'⟩ :=
      before.ne_frames (h.apart entered entered') entered.passing entered'.passing
    refine .inl ⟨before, ?_, ?_⟩
    · rw [entered.scopes, if_neg other]
    · rw [entered'.scopes, if_neg other']

/-- A call is entered in both arenas, and what its scopes stand for is the same. -/
theorem Twins.pushed {x' y' : Arena ο} (h : Twins a₀ more offset frames n x y)
    {parent frame frame' : ScopeId} (lasting : a₀.Lasting more parent)
    (entered : a₀.Entered more n parent frame x x')
    (entered' : a₀.Entered more n parent frame' y y') :
    Twins a₀ more offset ((frame, frame') :: frames) n x' y' := by
  have apart := h.apart entered entered'
  have past := h.right.grown.changes.clock_le
  have clock := h.clock
  constructor
  · exact entered.steady
  · exact entered'.steady
  · exact h.parents
  · rw [entered.clock, entered'.clock]
    omega
  · intro g g' call
    obtain same | call := List.mem_cons.1 call
    · cases same
      have new : a₀.clock < y.clock + 1 := by omega
      refine ⟨_, _, entered.scope?_frame, entered'.scope?_frame, rfl, rfl, new, rfl, ?_,
        .inr ⟨?_, new⟩⟩
      · intro p hp
        cases hp
        exact lasting
      · show x.clock + 1 = y.clock + 1 + offset
        omega
    · rw [entered.scopes, entered'.scopes, if_neg (apart g g' call).1, if_neg (apart g g' call).2]
      exact h.calls g g' call
  · intro f f' g g' hf hg
    obtain same | hf := List.mem_cons.1 hf
    · cases same
      obtain same | hg := List.mem_cons.1 hg
      · cases same
        exact ⟨fun _ => rfl, fun _ => rfl⟩
      · exact ⟨fun e => absurd e.symm (apart g g' hg).1, fun e => absurd e.symm (apart g g' hg).2⟩
    · obtain same | hg := List.mem_cons.1 hg
      · cases same
        exact ⟨fun e => absurd e (apart f f' hf).1, fun e => absurd e (apart f f' hf).2⟩
      · exact h.distinct f f' g g' hf hg
  · intro g g' call name
    obtain same | call := List.mem_cons.1 call
    · cases same
      exact entered.every name
    · obtain ⟨stored, priors⟩ := h.clean g g' call name
      refine ⟨?_, entered.journal ▸ priors⟩
      simpa only [stored?, entered.scopes, if_neg (apart g g' call).1] using stored
  · rw [entered.journal, entered'.journal]
    exact h.paired_of_entered entered entered'

/-- A call is left in both arenas, when no list is open that was opened inside it. -/
theorem Twins.popped {frame frame' : ScopeId}
    (h : Twins a₀ more offset ((frame, frame') :: frames) n x y)
    (apart : ∀ g g', (g, g') ∈ frames → g ≠ frame ∧ g' ≠ frame')
    (newest : ∀ s, x.scope? frame = some s → ∀ list ∈ x.journal, list.opened < s.created)
    (newest' : ∀ t, y.scope? frame' = some t → ∀ list ∈ y.journal, list.opened < t.created) :
    Twins a₀ more offset frames n (x.release frame.index) (y.release frame'.index) := by
  obtain ⟨s, t, live, live', function, function', new, mates⟩ := h.calls frame frame' (by simp)
  have new' : a₀.clock < s.created := by
    have created := mates.created
    omega
  have scopes : ∀ id, id ≠ frame → (x.release frame.index).scope? id = x.scope? id :=
    fun id => scope?_release_of_ne live
  have scopes' : ∀ id, id ≠ frame' → (y.release frame'.index).scope? id = y.scope? id :=
    fun id => scope?_release_of_ne live'
  constructor
  · exact h.left.popped live function new' (newest s live)
  · exact h.right.popped live' function' new (newest' t live')
  · exact h.parents
  · exact h.clock
  · intro g g' call
    rw [scopes g (apart g g' call).1, scopes' g' (apart g g' call).2]
    exact h.calls g g' (by simp [call])
  · exact fun f f' g g' hf hg => h.distinct f f' g g' (by simp [hf]) (by simp [hg])
  · intro g g' call name
    obtain ⟨stored, priors⟩ := h.clean g g' (by simp [call]) name
    refine ⟨?_, priors⟩
    simpa only [stored?, scopes g (apart g g' call).1] using stored
  · refine h.journals.of_matches fun id id' m => ?_
    obtain ⟨other, other'⟩ := m.ne_frames apart (h.left.grown.not_lasting live new')
      (h.right.grown.not_lasting live' new)
    refine .inl ⟨?_, scopes id other, scopes' id' other'⟩
    exact m.imp_left fun call => List.mem_cons_of_mem _ call

/-- What happens to lists leaves scopes alone. -/
theorem Twins.of_journals {x' y' : Arena ο} {m : Nat} (h : Twins a₀ more offset frames n x y)
    (left : a₀.Steady more m x') (right : a₀.Steady more m y')
    (clock : x'.clock = x.clock ∧ y'.clock = y.clock)
    (scopes : ∀ id, x'.scope? id = x.scope? id) (scopes' : ∀ id, y'.scope? id = y.scope? id)
    (priors : ∀ list ∈ x'.journal, list.touched = {} ∨
      ∃ old ∈ x.journal, list.touched = old.touched)
    (journals : Paired a₀ more frames offset x y m x'.journal y'.journal) :
    Twins a₀ more offset frames m x' y' where
  left := left
  right := right
  parents := h.parents
  clock := by rw [clock.1, clock.2, h.clock]
  calls f f' call := by
    rw [scopes, scopes']
    exact h.calls f f' call
  distinct := h.distinct
  clean f f' call name := by
    obtain ⟨stored, known⟩ := h.clean f f' call name
    refine ⟨by simpa only [stored?, scopes] using stored, fun list hl w found => ?_⟩
    obtain empty | ⟨old, mem, same⟩ := priors list hl
    · rw [empty] at found
      cases found
    · exact known old mem w (same ▸ found)
  journals := journals.of_matches fun id id' m => .inl ⟨m, scopes id, scopes' id'⟩

theorem Twins.openArguments (h : Twins a₀ more offset frames n x y) :
    Twins a₀ more offset frames (n + 1) x.openArguments y.openArguments := by
  refine h.of_journals h.left.openArguments h.right.openArguments ⟨rfl, rfl⟩ (fun _ => rfl)
    (fun _ => rfl) ?_ (.nested ⟨h.clock, ?_, rfl, fun _ _ _ _ => rfl, ?_⟩ h.journals)
  · intro list hl
    obtain rfl | hl := List.mem_cons.1 hl
    · exact .inl rfl
    · exact .inr ⟨list, hl, rfl⟩
  · exact h.right.grown.changes.clock_le
  · intro id id' name _ found
    cases found

theorem Twins.closeArguments (h : Twins a₀ more offset frames (n + 1) x y) :
    Twins a₀ more offset frames n x.closeArguments y.closeArguments := by
  refine h.of_journals h.left.closeArguments h.right.closeArguments ⟨rfl, rfl⟩ (fun _ => rfl)
    (fun _ => rfl) ?_ ?_
  · exact fun list hl => .inr ⟨list, List.mem_of_mem_tail hl, rfl⟩
  · obtain ⟨f, f', rest, rest', hj, hj', head, inner⟩ := h.journals.exists_cons
    show Paired a₀ more frames offset x y n x.journal.tail y.journal.tail
    rw [hj, hj']
    exact inner

theorem Twins.beginArgument (h : Twins a₀ more offset frames (n + 1) x y) (index : Nat) :
    Twins a₀ more offset frames (n + 1) (x.beginArgument index) (y.beginArgument index) := by
  obtain ⟨f, f', rest, rest', hj, hj', head, inner⟩ := h.journals.exists_cons
  have begun : x.beginArgument index =
      { x with journal := { f with current := index } :: rest } := by
    simp only [Arena.beginArgument, hj]
  have begun' : y.beginArgument index =
      { y with journal := { f' with current := index } :: rest' } := by
    simp only [Arena.beginArgument, hj']
  refine h.of_journals (h.left.beginArgument index) (h.right.beginArgument index) ?_ (by simp)
    (by simp) ?_ ?_
  · exact ⟨x.clock_beginArgument index, y.clock_beginArgument index⟩
  · intro list hl
    obtain ⟨old, mem, _, touched⟩ := exists_of_mem_beginArgument hl
    exact .inr ⟨old, mem, touched⟩
  · rw [begun, begun']
    exact .nested ⟨head.opened, head.later, rfl, head.touched, head.stored⟩ inner

/-- A write that lands in the first arena lands in the second. -/
theorem Twins.define (h : Twins a₀ more offset frames n x y) (m : a₀.Matches more frames id id')
    (name : String) {value : Value} (clean : a₀.Clean more (some value)) {observers : List ο}
    {x' : Arena ο} (done : (define id name value).on x = (.ok observers, x')) :
    ∃ observers' y', (Arena.define id' name value).on y = (.ok observers', y') ∧
      Twins a₀ more offset frames n x' y' := by
  rw [on_define] at done ⊢
  obtain ⟨here, there⟩ | ⟨s, t, here, there, mates⟩ := h.scopes m
  · rw [here] at done
    cases done
  · rw [here] at done
    rw [there]
    cases done
    exact ⟨_, _, rfl, h.written m here there mates name clean⟩

theorem Twins.assign (h : Twins a₀ more offset frames n x y) (m : a₀.Matches more frames id id')
    (name : String) {value : Value} (clean : a₀.Clean more (some value)) {observers : List ο}
    {x' : Arena ο} (done : (assign id name value).on x = (.ok observers, x')) :
    ∃ observers' y', (Arena.assign id' name value).on y = (.ok observers', y') ∧
      Twins a₀ more offset frames n x' y' := by
  have found := h.resolve? name m
  have policy : y.policy = x.policy := h.right.grown.policy.trans h.left.grown.policy.symm
  rw [on_assign] at done ⊢
  rw [policy]
  generalize x.resolve? id name = owner at found done
  generalize y.resolve? id' name = owner' at found
  cases found with
  | some matching => exact h.define matching name clean done
  | none =>
    cases hp : x.policy with
    | strict =>
      rw [hp] at done
      cases done
    | defineLocal =>
      rw [hp] at done
      exact h.define m name clean done

/-- Where neither arena's list hides or shows anything, an argument is about to be resolved in both.
-/
theorem Steady.twins (left : a₀.Steady more 0 x) (right : a₀.Steady more 0 y)
    (unwritten : a₀.Unwritten more x) (unwritten' : a₀.Unwritten more y)
    (parents : ∀ id s p, a₀.scope? id = some s → s.parent = some p → a₀.Lasting more p)
    (clock : x.clock = y.clock + offset) : Twins a₀ more offset [] 0 x y where
  left := left
  right := right
  parents := parents
  clock := clock
  calls _ _ h := by cases h
  distinct _ _ _ _ h := by cases h
  clean _ _ h := by cases h
  journals := by
    refine .base fun id id' name m => ?_
    obtain call | ⟨rfl, lasting⟩ := m
    · cases call
    · exact (unwritten id name lasting).trans (unwritten' id name lasting).symm

end

end Fluent.Arena

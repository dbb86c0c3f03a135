import Fluent.Proofs.Arena.Lasting

/-!
# Activities that make no objects

Such an activity makes function scopes only and releases them again, so that every scope that was
there stays there.

Main statements: `Activity.without_objects`, no object was made if none is new in the end;
`Grown.old_or_new`, a scope was there or it has a handle that nothing knows.
-/
namespace Fluent.Arena

open Value (Rearranged)

variable {ο : Type}

/-- An object is there that was made later. -/
def HasObjectSince (a : Arena ο) (since : Nat) : Prop :=
  ∃ id s, a.scope? id = some s ∧ s.kind = .object ∧ since < s.created

theorem HasObjectSince.exists_slot {a : Arena ο} {since : Nat} (h : a.HasObjectSince since) :
    ∃ i < a.slots.size, a.hasObject i = true := by
  obtain ⟨id, s, here, object, _⟩ := h
  refine ⟨id.index, index_lt_of_isLive ((a.isLive_iff id).2 ⟨s, here⟩), ?_⟩
  exact (a.hasObject_iff id.index).2 ⟨id.generation, s, (a.scope?_eq_some_iff id s).1 here, object⟩

/-- No object goes with a function scope. -/
theorem HasObjectSince.release {a : Arena ο} {since : Nat} (h : a.HasObjectSince since)
    {frame : ScopeId} {s : Scope ο} (live : a.scope? frame = some s) (function : s.kind = .function) :
    (a.release frame.index).HasObjectSince since := by
  obtain ⟨id, t, here, object, new⟩ := h
  refine ⟨id, t, ?_, object, new⟩
  rw [scope?_release_of_ne live, here]
  rintro rfl
  rw [live] at here
  cases here
  rw [object] at function
  cases function

theorem WellFormed.hasObjectSince_of_made {a b c : Arena ο} (wf : a.WellFormed) {held : List Value}
    {parent : Option ScopeId} {id : ScopeId}
    (made : (a.reclaim held).2.allocate (blank .object parent) = (id, b)) (filled : Fills id b c)
    {since : Nat} (old : since ≤ a.clock) : c.HasObjectSince since := by
  have reclaimed := a.turnovers_reclaim held
  have there := (reclaimed.wellFormed wf).scope?_of_allocate_eq made id
  rw [if_pos rfl] at there
  obtain ⟨t, after, akin⟩ := filled.akin there
  refine ⟨id, t, after, akin.kind, ?_⟩
  have clock := reclaimed.clock_le
  have created : t.created = (a.reclaim held).2.clock + 1 := akin.created
  omega

/-- An object that was made is reclaimed only when another one is made. -/
theorem Activity.hasObjectSince {objects : Prop} {within : Bool} {a b : Arena ο}
    (h : Activity objects within a b) (wf : a.WellFormed) {since : Nat} (old : since ≤ a.clock)
    (has : a.HasObjectSince since) : b.HasObjectSince since := by
  induction h with
  | idle => exact has
  | trans first second ih ih' =>
    have clock := (first.changes wf).clock_le
    exact ih' (first.wellFormed wf) (by omega) (ih wf old has)
  | shuffle live same =>
    obtain ⟨id, s, here, object, new⟩ := has
    obtain ⟨t, there, akin⟩ := akin_written live _ _ here
    exact ⟨id, t, there, akin.kind.trans object, akin.created ▸ new⟩
  | object allowed held made filled => exact wf.hasObjectSince_of_made made filled old
  | @call _ a b c d parent frame live made bound body ih =>
    have opened : Turnover a b := .of_allocate_eq (by simp) made
    have before : Changes a c := .head (.turnover opened) bound.changes
    have wfc := before.wellFormed wf
    have clock := before.clock_le
    obtain ⟨id, s, here, object, new⟩ := has
    have kept := wf.scope?_of_allocate_eq made id
    rw [if_neg, here] at kept
    · obtain ⟨t, there, akin⟩ := bound.akin kept
      have has := ih wfc (by omega) ⟨id, t, there, akin.kind.trans object, akin.created ▸ new⟩
      obtain ⟨_, live, function, _⟩ := wf.exists_newest_frame made bound body
      exact has.release live function
    · rintro rfl
      have unknown := wf.scope?_fst_allocate (blank .function (some parent))
      rw [made, here] at unknown
      cases unknown
  | list arguments ih => exact ih wf.openArguments old has
  | begin index =>
    obtain ⟨id, s, here, object, new⟩ := has
    exact ⟨id, s, by simpa using here, object, new⟩

/-- If no object is there in the end that was not there before, none was made. -/
theorem Activity.without_objects {objects : Prop} {within : Bool} {a b : Arena ο}
    (h : Activity objects within a b) (wf : a.WellFormed) {since : Nat} (old : since ≤ a.clock)
    (none : ¬ b.HasObjectSince since) : Activity False within a b := by
  induction h with
  | idle => exact .idle
  | trans first second ih ih' =>
    have clock := (first.changes wf).clock_le
    have wfb := first.wellFormed wf
    refine .trans (ih wf old fun has => none ?_) (ih' wfb (by omega) none)
    exact second.hasObjectSince wfb (by omega) has
  | shuffle live same => exact .shuffle live same
  | object allowed held made filled =>
    exact absurd (wf.hasObjectSince_of_made made filled old) none
  | @call _ a b c d parent frame live made bound body ih =>
    have opened : Turnover a b := .of_allocate_eq (by simp) made
    have before : Changes a c := .head (.turnover opened) bound.changes
    have wfc := before.wellFormed wf
    have clock := before.clock_le
    refine .call live made bound (ih wfc (by omega) fun has => none ?_)
    obtain ⟨_, live, function, _⟩ := wf.exists_newest_frame made bound body
    exact has.release live function
  | list arguments ih => exact .list (ih wf.openArguments old none)
  | begin index => exact .begin index

/-- In the second arena nothing is less advanced, and the objects that are new in the first are
still there or have made room for newer ones. -/
structure Onward (a b : Arena ο) : Prop where
  wellFormed : b.WellFormed
  clock_le : a.clock ≤ b.clock
  objects : ∀ since ≤ a.clock, a.HasObjectSince since → b.HasObjectSince since

theorem Onward.refl {a : Arena ο} (wf : a.WellFormed) : Onward a a :=
  ⟨wf, Nat.le_refl _, fun _ _ has => has⟩

theorem Onward.trans {a b c : Arena ο} (hab : Onward a b) (hbc : Onward b c) : Onward a c :=
  ⟨hbc.wellFormed, Nat.le_trans hab.clock_le hbc.clock_le, fun since old has =>
    hbc.objects since (Nat.le_trans old hab.clock_le) (hab.objects since old has)⟩

theorem Activity.onward {objects : Prop} {within : Bool} {a b : Arena ο}
    (h : Activity objects within a b) (wf : a.WellFormed) : Onward a b :=
  ⟨h.wellFormed wf, (h.changes wf).clock_le, fun _ old => h.hasObjectSince wf old⟩

theorem Onward.of_scope?_eq {a b : Arena ο} (wf : b.WellFormed) (clock : b.clock = a.clock)
    (scopes : ∀ id, b.scope? id = a.scope? id) : Onward a b := by
  refine ⟨wf, Nat.le_of_eq clock.symm, fun since _ has => ?_⟩
  obtain ⟨id, s, here, object, new⟩ := has
  exact ⟨id, s, by rw [scopes, here], object, new⟩

theorem onward_beginArgument {a : Arena ο} (wf : a.WellFormed) (index : Nat) :
    Onward a (a.beginArgument index) :=
  .of_scope?_eq (wf.beginArgument index) (a.clock_beginArgument index) fun id => by simp

theorem onward_written {a : Arena ο} (wf : a.WellFormed) {id : ScopeId} {s : Scope ο}
    (live : a.scope? id = some s) (name : String) (value : Value) :
    Onward a (a.written id s name value) := by
  refine ⟨wf.written live name value, Nat.le_refl _, fun since _ has => ?_⟩
  obtain ⟨other, t, here, object, new⟩ := has
  obtain ⟨u, there, akin⟩ := akin_written live name value here
  exact ⟨other, u, there, akin.kind.trans object, akin.created ▸ new⟩

theorem Fills.onward {a b : Arena ο} {id : ScopeId} (h : Fills id a b) (wf : a.WellFormed) :
    Onward a b := by
  induction h with
  | refl => exact .refl wf
  | tail _ fill ih =>
    obtain ⟨s, name, value, live, rfl⟩ := fill
    exact ih.trans (onward_written ih.wellFormed live name value)

theorem onward_define {a : Arena ο} (wf : a.WellFormed) (id : ScopeId) (name : String)
    (value : Value) : Onward a ((define id name value).on a).2 := by
  rw [on_define]
  split
  · rename_i s live
    exact onward_written wf live name value
  · exact .refl wf

theorem onward_assign {a : Arena ο} (wf : a.WellFormed) (id : ScopeId) (name : String)
    (value : Value) : Onward a ((assign id name value).on a).2 := by
  rw [on_assign]
  split
  · exact onward_define wf _ name value
  · exact .refl wf
  · exact onward_define wf id name value

/-- No object has been made since, and no more scopes than so many. -/
structure Calm (a₀ : Arena ο) (more : Nat) (a : Arena ο) : Prop where
  objects : ¬ a.HasObjectSince a₀.clock
  clock_le : a.clock ≤ a₀.clock + more

theorem Calm.of_onward {a₀ a b : Arena ο} {more : Nat} (h : a₀.Calm more b) (onward : Onward a b)
    (past : a₀.clock ≤ a.clock) : a₀.Calm more a :=
  ⟨fun has => h.objects (onward.objects _ past has), Nat.le_trans onward.clock_le h.clock_le⟩

/-- Nothing that the value mentions is given another meaning while so many scopes are made. -/
def Clean (a : Arena ο) (more : Nat) (v : Option Value) : Prop :=
  ∀ u, v = some u → ∀ id, u.Refers id → a.Lasting more id

theorem clean_none (a : Arena ο) (more : Nat) : a.Clean more none :=
  fun _ h => by cases h

/-- Arrays of the same items mention the same. -/
theorem upToOrder_clean (a : Arena ο) (more : Nat) : UpToOrder (a.Clean more) := by
  intro v w clean same
  obtain rfl | ⟨xs, ys, rfl, rfl, perm⟩ := same
  · exact clean
  · intro u hu id refers
    cases hu
    cases refers with
    | item mem refers => exact clean _ rfl id (.item (perm.mem_iff.2 mem) refers)

/-- The second arena comes from the first by making at most so many scopes, with none of its scopes
released. -/
structure Grown (a₀ : Arena ο) (more : Nat) (a : Arena ο) : Prop where
  start : a₀.WellFormed
  changes : Changes a₀ a
  clock_le : a.clock ≤ a₀.clock + more
  policy : a.policy = a₀.policy
  kept : ∀ id s, a₀.scope? id = some s → ∃ t, a.scope? id = some t ∧ s.Akin t

section

variable {a₀ a b : Arena ο} {more : Nat}

theorem Grown.refl (start : a₀.WellFormed) (more : Nat) : a₀.Grown more a₀ :=
  ⟨start, .refl, Nat.le_add_right _ _, rfl, fun _ s here => ⟨s, here, .refl s⟩⟩

theorem Grown.wellFormed (h : a₀.Grown more a) : a.WellFormed :=
  h.changes.wellFormed h.start

/-- A scope was there, or it is new and its handle is not lasting. -/
theorem Grown.old_or_new (h : a₀.Grown more a) {id : ScopeId} {t : Scope ο}
    (there : a.scope? id = some t) :
    (∃ s, a₀.scope? id = some s ∧ s.Akin t) ∨ a₀.clock < t.created ∧ ¬ a₀.Lasting more id := by
  obtain old | ⟨new, k, hk, same⟩ := h.changes.origin h.start there
  · exact .inl old
  · refine .inr ⟨new, ?_⟩
    have clock := h.clock_le
    rintro (live | other)
    · obtain ⟨s, here⟩ := (a₀.isLive_iff id).1 live
      obtain ⟨u, kept, akin⟩ := h.kept id s here
      rw [there] at kept
      cases kept
      have old := h.start.created_le id s here
      have created := akin.created
      omega
    · exact other k (by omega) same

theorem Grown.of_lasting (h : a₀.Grown more a) {id : ScopeId} (lasting : a₀.Lasting more id)
    {t : Scope ο} (there : a.scope? id = some t) : ∃ s, a₀.scope? id = some s ∧ s.Akin t := by
  obtain old | ⟨_, fleeting⟩ := h.old_or_new there
  · exact old
  · exact absurd lasting fleeting

theorem Grown.created_le (h : a₀.Grown more a) {id : ScopeId} (lasting : a₀.Lasting more id)
    {t : Scope ο} (there : a.scope? id = some t) : t.created ≤ a₀.clock := by
  obtain ⟨s, here, akin⟩ := h.of_lasting lasting there
  exact akin.created ▸ h.start.created_le id s here

theorem Grown.not_lasting (h : a₀.Grown more a) {id : ScopeId} {t : Scope ο}
    (there : a.scope? id = some t) (new : a₀.clock < t.created) : ¬ a₀.Lasting more id := by
  intro lasting
  have old := h.created_le lasting there
  omega

theorem Grown.written (h : a₀.Grown more a) {id : ScopeId} {s : Scope ο} (live : a.scope? id = some s)
    (name : String) (value : Value) : a₀.Grown more (a.written id s name value) where
  start := h.start
  changes := h.changes.tail (.write live name value)
  clock_le := h.clock_le
  policy := h.policy
  kept other t here := by
    obtain ⟨u, there, akin⟩ := h.kept other t here
    obtain ⟨v, after, akin'⟩ := akin_written live name value there
    exact ⟨v, after, akin.trans akin'⟩

/-- What happens to open lists does not matter. -/
theorem Grown.of_change (h : a₀.Grown more a) (change : Change a b) (clock : b.clock = a.clock)
    (policy : b.policy = a.policy) (scopes : ∀ id, b.scope? id = a.scope? id) : a₀.Grown more b where
  start := h.start
  changes := h.changes.tail change
  clock_le := clock ▸ h.clock_le
  policy := policy.trans h.policy
  kept id s here := by simpa only [scopes] using h.kept id s here

theorem Grown.pushed (h : a₀.Grown more a) {parent frame : ScopeId}
    (made : a.allocate (blank .function (some parent)) = (frame, b))
    (clock : a.clock < a₀.clock + more) : a₀.Grown more b where
  start := h.start
  changes := h.changes.tail (.turnover (.of_allocate_eq (by simp) made))
  clock_le := by
    have next := a.clock_allocate (blank .function (some parent))
    rw [made] at next
    simp only at next
    omega
  policy := by
    have same : (a.allocate (blank .function (some parent))).2.policy = a.policy := by
      unfold allocate
      split <;> rfl
    rw [made] at same
    exact same.trans h.policy
  kept id s here := by
    obtain ⟨t, there, akin⟩ := h.kept id s here
    refine ⟨t, ?_, akin⟩
    rw [h.wellFormed.scope?_of_allocate_eq made, if_neg, there]
    rintro rfl
    have unknown := h.wellFormed.scope?_fst_allocate (blank .function (some parent))
    rw [made, there] at unknown
    cases unknown

theorem Grown.popped (h : a₀.Grown more a) {frame : ScopeId} {s : Scope ο}
    (live : a.scope? frame = some s) (function : s.kind = .function) (new : a₀.clock < s.created) :
    a₀.Grown more (a.release frame.index) where
  start := h.start
  changes := h.changes.tail (.turnover (.release live (by simp [function])))
  clock_le := h.clock_le
  policy := h.policy
  kept id t here := by
    obtain ⟨u, there, akin⟩ := h.kept id t here
    refine ⟨u, ?_, akin⟩
    rw [scope?_release_of_ne live, there]
    rintro rfl
    rw [live] at there
    cases there
    have old := h.start.created_le id t here
    have created := akin.created
    omega

end

end Fluent.Arena

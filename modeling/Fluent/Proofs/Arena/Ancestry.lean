import Mathlib.Data.List.Nodup
import Fluent.Proofs.Arena.Parents
import Fluent.Proofs.Arena.Reclaiming
import Fluent.Proofs.Arena.Search

/-!
# The search outward ends

A scope names its parent by a handle, and nothing about handles and slots keeps a scope from being
its own ancestor: the parent may be released while the scope is there, and its slot may be given to
one of those inside. The times at which scopes are made decide. A scope is made after its parent,
and as long as generations do not come round, a handle that is live is still to the scope that it
was to. So the way from a live scope outward comes to older and older scopes.

Main statements: `Operation.created_lt_of_parent`, a scope is younger than its parent;
`Arena.searchTurns_liveCount`, what that means for the loop that looks for a name; and
`Operation.searches_end`.
-/
namespace Fluent

namespace Arena

variable {ο : Type}

/-! ### Ways outward -/

/-- Every scope is younger than its parent, where that is live. -/
def Aged (a : Arena ο) : Prop :=
  ∀ id s parent p, a.scope? id = some s → s.parent = some parent → a.scope? parent = some p →
    p.created < s.created

/-- The scopes are live and lead from the first one outward, each to its parent. -/
inductive Outward (a : Arena ο) : List ScopeId → Prop
  | start {id : ScopeId} (live : a.isLive id = true) : Outward a [id]
  | step {id parent : ScopeId} {s : Scope ο} {rest : List ScopeId} (here : a.scope? id = some s)
      (inside : s.parent = some parent) (further : Outward a (parent :: rest)) :
      Outward a (id :: parent :: rest)

theorem Outward.live {a : Arena ο} {way : List ScopeId} (h : a.Outward way) :
    ∀ id ∈ way, a.isLive id = true := by
  induction h with
  | start live => simpa using live
  | step here inside _ ih =>
    intro other mem
    obtain rfl | mem := List.mem_cons.1 mem
    · exact (isLive_iff _ _).2 ⟨_, here⟩
    · exact ih other mem

/-- By induction on the way: where it leads to is older than where it starts. -/
theorem Outward.created_lt {a : Arena ο} (aged : a.Aged) {id : ScopeId} {rest : List ScopeId}
    (h : a.Outward (id :: rest)) {s : Scope ο} (here : a.scope? id = some s) :
    ∀ outer ∈ rest, ∀ t, a.scope? outer = some t → t.created < s.created := by
  induction rest generalizing id s with
  | nil => simp
  | cons parent rest ih =>
    cases h with
    | step first inside further =>
      cases here.symm.trans first
      obtain ⟨p, there⟩ := (isLive_iff _ _).1 (further.live parent List.mem_cons_self)
      have older := aged id s parent p here inside there
      intro outer mem t found
      obtain rfl | mem := List.mem_cons.1 mem
      · cases there.symm.trans found
        exact older
      · exact Nat.lt_trans (ih further there outer mem t found) older

/-- The way outward passes no scope twice. -/
theorem Outward.nodup {a : Arena ο} (aged : a.Aged) {way : List ScopeId} (h : a.Outward way) :
    way.Nodup := by
  induction h with
  | start => exact List.nodup_singleton _
  | @step id parent s rest here inside further ih =>
    refine List.nodup_cons.2 ⟨fun again => ?_, ih⟩
    have whole : a.Outward (id :: parent :: rest) := .step here inside further
    exact absurd (whole.created_lt aged here id again s here) (Nat.lt_irrefl _)

/-- There are no more different live handles than scopes. -/
theorem length_le_liveCount {a : Arena ο} {handles : List ScopeId} (nodup : handles.Nodup)
    (live : ∀ id ∈ handles, a.isLive id = true) : handles.length ≤ a.liveCount := by
  have taken : handles.map ScopeId.index ⊆
      (List.range a.slots.toList.length).filter fun i =>
        a.slots.toList[i]?.any fun slot => slot.scope.isSome := by
    intro index mapped
    obtain ⟨id, mem, rfl⟩ := List.mem_map.1 mapped
    exact List.mem_filter.2 ⟨List.mem_range.2 (index_lt_of_isLive (live id mem)),
      (a.exists_isLive_iff _).2 ⟨id, rfl, live id mem⟩⟩
  have bounded := (nodup_map_index nodup live).length_le_of_subset taken
  rwa [List.length_map, length_filter_range, Array.countP_toList] at bounded

/-! ### The loop of the search -/

/-- What the loop that looks for a name from scope to scope answers within so many turns. It says
nothing as long as it goes on. -/
def searchTurns (a : Arena ο) (name : String) : Nat → Option ScopeId → Option (Option ScopeId)
  | _, none => some none
  | 0, some _ => none
  | turns + 1, some id =>
    match a.scope? id with
    | none => some none
    | some s =>
      if (a.findLocal? id name).isSome then some (some id) else a.searchTurns name turns s.parent

/-- Once the loop has answered, it makes no more turns. -/
theorem searchTurns_mono {a : Arena ο} {name : String} {turns more : Nat} {next : Option ScopeId}
    {answer : Option ScopeId} (h : a.searchTurns name turns next = some answer)
    (hle : turns ≤ more) : a.searchTurns name more next = some answer := by
  induction turns generalizing more next with
  | zero =>
    cases next with
    | none => simpa only [searchTurns] using h
    | some id => cases h
  | succ turns ih =>
    obtain ⟨more, rfl⟩ : ∃ m, more = m + 1 := ⟨more - 1, by omega⟩
    cases next with
    | none => simpa only [searchTurns] using h
    | some id =>
      rw [searchTurns] at h ⊢
      cases live : a.scope? id with
      | none =>
        rw [live] at h
        exact h
      | some s =>
        simp only [live] at h ⊢
        by_cases bound : (a.findLocal? id name).isSome = true
        · rw [if_pos bound] at h ⊢
          exact h
        · rw [if_neg bound] at h ⊢
          exact ih h (Nat.le_of_succ_le_succ hle)

/-- What the loop answers is what the search finds that is given as many steps. -/
theorem bind_resolveWithin?_eq {a : Arena ο} {name : String} {turns : Nat} {next : Option ScopeId}
    {answer : Option ScopeId} (h : a.searchTurns name turns next = some answer) :
    next.bind (a.resolveWithin? name turns) = answer := by
  induction turns generalizing next with
  | zero =>
    cases next with
    | none => simpa [searchTurns] using h
    | some id => cases h
  | succ turns ih =>
    cases next with
    | none => simpa [searchTurns] using h
    | some id =>
      rw [searchTurns] at h
      rw [Option.bind_some, resolveWithin?]
      cases live : a.scope? id with
      | none =>
        rw [live] at h
        exact Option.some.inj h
      | some s =>
        simp only [live] at h ⊢
        by_cases bound : (a.findLocal? id name).isSome = true
        · rw [if_pos bound] at h ⊢
          exact Option.some.inj h
        · rw [if_neg bound] at h ⊢
          exact ih h

/-- A loop that goes on has passed as many scopes as it has made turns, on a way outward, and none
of them is outermost. -/
theorem exists_outward {a : Arena ο} {name : String} {turns : Nat} {id : ScopeId}
    (unanswered : a.searchTurns name (turns + 1) (some id) = none) :
    ∃ rest, a.Outward (id :: rest) ∧ rest.length = turns ∧
      ∀ inner ∈ id :: rest, ∀ s, a.scope? inner = some s → s.parent ≠ none := by
  induction turns generalizing id with
  | zero =>
    rw [searchTurns] at unanswered
    cases here : a.scope? id with
    | none =>
      rw [here] at unanswered
      cases unanswered
    | some s =>
      simp only [here] at unanswered
      split at unanswered
      · cases unanswered
      · refine ⟨[], .start ((isLive_iff _ _).2 ⟨s, here⟩), rfl, ?_⟩
        intro inner mem t there outermost
        obtain rfl := List.mem_singleton.1 mem
        cases here.symm.trans there
        rw [outermost] at unanswered
        cases unanswered
  | succ turns ih =>
    rw [searchTurns] at unanswered
    cases here : a.scope? id with
    | none =>
      rw [here] at unanswered
      cases unanswered
    | some s =>
      simp only [here] at unanswered
      split at unanswered
      · cases unanswered
      · cases inside : s.parent with
        | none =>
          rw [inside] at unanswered
          cases unanswered
        | some parent =>
          rw [inside] at unanswered
          obtain ⟨rest, way, length, inner⟩ := ih unanswered
          refine ⟨parent :: rest, .step here inside way, by rw [List.length_cons, length], ?_⟩
          intro other mem t there outermost
          obtain rfl | mem := List.mem_cons.1 mem
          · cases here.symm.trans there
            rw [inside] at outermost
            cases outermost
          · exact inner other mem t there outermost

/-- Where scopes are younger than their parents, the loop makes at most as many turns as there are
scopes. A way as long as that would pass all of them, the global one included, which is
outermost. -/
theorem searchTurns_liveCount {a : Arena ο} (wf : a.WellFormed) (aged : a.Aged)
    (outermost : ∀ g, a.scope? global = some g → g.parent = none) (id : ScopeId) (name : String) :
    a.searchTurns name a.liveCount (some id) = some (a.resolve? id name) := by
  cases ended : a.searchTurns name a.liveCount (some id) with
  | some answer =>
    have few : a.liveCount ≤ a.clock + 1 := by
      have slots := wf.liveCount_add_length_free
      have size := wf.size_le
      omega
    exact congrArg some (bind_resolveWithin?_eq (searchTurns_mono ended few)).symm
  | none =>
    obtain ⟨turns, count⟩ := Nat.exists_eq_succ_of_ne_zero (Nat.ne_of_gt wf.liveCount_pos)
    rw [count] at ended
    obtain ⟨rest, way, length, inner⟩ := exists_outward ended
    obtain ⟨g, there, -, -⟩ := wf.global_live
    -- the way does not pass the global scope, so it leaves one of the scopes out
    have apart : global ∉ id :: rest := fun mem => inner global mem g there (outermost g there)
    have live : ∀ other ∈ global :: id :: rest, a.isLive other = true := by
      intro other mem
      obtain rfl | mem := List.mem_cons.1 mem
      · exact (isLive_iff _ _).2 ⟨g, there⟩
      · exact way.live other mem
    have bounded := length_le_liveCount (List.nodup_cons.2 ⟨apart, way.nodup aged⟩) live
    simp only [List.length_cons] at bounded
    omega

end Arena

namespace Operation

open Arena

variable {ο : Type}

/-! ### When scopes are made -/

/-- A scope that is made inside another is younger than all that were there before. -/
theorem Makes.clock_lt {a : Arena ο} (wf : a.WellFormed) {id parent : ScopeId} {op : Operation ο}
    (makes : Makes a id parent op) {s : Scope ο} (here : (op.after a).scope? id = some s) :
    a.clock < s.created := by
  cases makes with
  | pushFunction answered =>
    have answer := on_pushFunction a parent
    simp only [after, perform, snd_on_forget, answered] at here
    rw [answered] at answer
    cases live : a.scope? parent with
    | none =>
      rw [live] at answer
      cases answer
    | some p =>
      rw [live] at answer
      cases answer
      rw [wf.scope?_allocate, if_pos rfl] at here
      cases here
      exact Nat.lt_succ_self _
  | @newObject held b answered =>
    have answer := on_newObject a held (some parent)
    simp only [after, perform, snd_on_forget, answered] at here
    rw [answered] at answer
    cases stale : (some parent).filter fun p => !a.isLive p with
    | some p =>
      rw [stale] at answer
      cases answer
    | none =>
      rw [stale] at answer
      cases answer
      rw [((a.turnovers_reclaim held).wellFormed wf).scope?_allocate, if_pos rfl] at here
      cases here
      show a.clock < (a.reclaim held).2.clock + 1
      rw [snd_reclaim, clock_foldl_release]
      exact Nat.lt_succ_self _

variable {policy : AssignmentPolicy} {bindings : List (String × Value)}

/-- At some time of the run the parent of a scope was live, and all scopes of that time are older
than the scope. -/
theorem exists_time_before {ops : List (Operation ο)} {id parent : ScopeId} {s : Scope ο}
    (here : (afterAll ops (ofGlobals policy bindings)).scope? id = some s)
    (inside : s.parent = some parent) :
    ∃ before later, ops = before ++ later ∧
      (afterAll before (ofGlobals policy bindings : Arena ο)).isLive parent = true ∧
      (afterAll before (ofGlobals policy bindings : Arena ο)).clock < s.created := by
  have start := wellFormed_ofGlobals (ο := ο) policy bindings
  obtain ⟨r, first, akin⟩ | ⟨before, op, later, r, split, makes, live, now, akin⟩ :=
    akin_or_made ops start here inside
  · have outermost := parent_of_scope?_ofGlobals first
    rw [← akin.parent, inside] at outermost
    cases outermost
  · exact ⟨before, op :: later, split, live,
      akin.created ▸ makes.clock_lt (wellFormed_afterAll before start) now⟩

/-- The global scope is outermost. -/
theorem parent_global {ops : List (Operation ο)} {g : Scope ο}
    (here : (afterAll ops (ofGlobals policy bindings)).scope? global = some g) :
    g.parent = none := by
  obtain ⟨first, there, -, created⟩ :=
    (wellFormed_afterAll ops (wellFormed_ofGlobals policy bindings)).global_live
  cases here.symm.trans there
  rw [Option.eq_none_iff_forall_ne_some]
  -- it was made at the very beginning, and scopes inside another one are made later
  intro parent inside
  obtain ⟨before, later, -, -, younger⟩ := exists_time_before here inside
  omega

/-- Until generations come round, a scope is younger than its parent: a handle that is live was to
no other scope when it became the scope's parent. -/
theorem created_lt_of_parent {ops : List (Operation ο)}
    (few : ∀ index, releases index ops (ofGlobals policy bindings) < 2 ^ 32) :
    (afterAll ops (ofGlobals policy bindings)).Aged := by
  intro id s parent p here inside outer
  obtain ⟨before, later, split, live, younger⟩ := exists_time_before here inside
  have wf := wellFormed_afterAll before (wellFormed_ofGlobals (ο := ο) policy bindings)
  obtain ⟨q, there⟩ := (isLive_iff _ _).1 live
  have fewer : releases parent.index later (afterAll before (ofGlobals policy bindings)) <
      2 ^ 32 := by
    have all := few parent.index
    rw [split, releases_append] at all
    omega
  -- the parent's handle is live in the end, so its slot has not been released in between
  obtain ⟨stays, unreleased⟩ := isLive_afterAll_iff later wf there fewer
  rw [← afterAll_append, ← split] at stays unreleased
  obtain ⟨t, now, akin⟩ := stays (unreleased.1 ((isLive_iff _ _).2 ⟨p, outer⟩))
  cases outer.symm.trans now
  calc p.created = q.created := akin.created
    _ ≤ (afterAll before (ofGlobals policy bindings)).clock := wf.created_le parent q there
    _ < s.created := younger

/-- Until a slot has been released `2 ^ 32` times, every scope is younger than its parent if that is
live, no way outward passes a scope twice or is longer than there are scopes, and the loop that
looks for a name, from whatever scope, makes at most as many turns as there are scopes. -/
theorem searches_end (policy : AssignmentPolicy) (bindings : List (String × Value))
    (ops : List (Operation ο))
    (few : ∀ index, releases index ops (ofGlobals policy bindings) < 2 ^ 32) :
    let a := afterAll ops (ofGlobals policy bindings)
    (∀ id s parent p, a.scope? id = some s → s.parent = some parent → a.scope? parent = some p →
      p.created < s.created) ∧
    (∀ way, a.Outward way → way.Nodup ∧ way.length ≤ a.liveCount) ∧
    ∀ id name, a.searchTurns name a.liveCount (some id) = some (a.resolve? id name) := by
  intro a
  have wf : a.WellFormed := wellFormed_afterAll ops (wellFormed_ofGlobals policy bindings)
  have aged : a.Aged := created_lt_of_parent few
  refine ⟨aged, fun way outward => ?_, fun id name => ?_⟩
  · have nodup := outward.nodup aged
    exact ⟨nodup, length_le_liveCount nodup outward.live⟩
  · exact searchTurns_liveCount wf aged (fun g there => parent_global there) id name

/-- An activation inside an object, and inside the activation a second one in the slot of the
object, which has been reclaimed. The way outward from there ends at the first activation. -/
theorem searches_end_reused :
    let ops : List (Operation Unit) :=
      [.newObject [] none, .pushFunction ⟨1, 0⟩, .reclaim [], .pushFunction ⟨2, 0⟩]
    let a := afterAll ops (ofGlobals .strict [])
    (∀ index, releases index ops (ofGlobals .strict []) < 2 ^ 32) ∧
      a.Outward [⟨1, 1⟩, ⟨2, 0⟩] ∧ [(⟨1, 1⟩ : ScopeId), ⟨2, 0⟩].length ≤ a.liveCount ∧
      a.searchTurns "x" 3 (some ⟨1, 1⟩) = some none := by
  intro ops a
  have few : ∀ index, releases index ops (ofGlobals .strict []) < 2 ^ 32 := by
    intro index
    have first : (Operation.newObject [] none).released (ofGlobals .strict [] : Arena Unit) = [] :=
      rfl
    have reclaimed : (Operation.reclaim []).released
        (afterAll [.newObject [] none, .pushFunction ⟨1, 0⟩] (ofGlobals .strict [] : Arena Unit)) =
          [1] := rfl
    simp only [afterAll_cons, afterAll_nil] at reclaimed
    have once : [1].count index ≤ 1 := List.count_le_length
    simp only [ops, releases, first, reclaimed]
    simp only [released, List.count_nil]
    omega
  have inner : a.scope? ⟨1, 1⟩ =
      some { kind := .function, parent := some ⟨2, 0⟩, created := 3 } := rfl
  have outward : a.Outward [⟨1, 1⟩, ⟨2, 0⟩] := .step inner rfl (.start rfl)
  obtain ⟨-, ways, searches⟩ := searches_end .strict [] ops few
  exact ⟨few, outward, (ways _ outward).2, searches ⟨1, 1⟩ "x"⟩

end Operation

end Fluent

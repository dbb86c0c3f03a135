import Mathlib.Data.List.Nodup
import Fluent.Proofs.Arena.Reclaiming

/-!
# Which objects a reclaim releases

An object is kept if somebody holds it who is no object himself, or if a kept object holds it, also
where objects hold one another in a circle. So the objects that are kept are the largest group of
which every one is held from outside of objects or by one of the group. Reclaiming goes round after
round and releases in each what nobody holds at that time; in the end it has released what is not in
the group, and nothing else.

Main statements: `KeptTogether.scope?_reclaim`, a group that is kept together stays;
`WellFormed.keptTogether_reclaim`, what stays is kept together; `reclaim_releases_unkept`.
-/
namespace Fluent.Arena

variable {ο : Type}

/-- The object is held by somebody who is no object: by a value that is held outside the arena, by a
binding of the global scope or of an activation, or by what a binding was before an open list's
first write. -/
inductive Rooted (a : Arena ο) (held : List Value) (id : ScopeId) : Prop where
  | outside {v : Value} (mem : v ∈ held) (handle : id ∈ v.objects)
  | bound {scope : ScopeId} {s : Scope ο} {v : Value} (live : a.scope? scope = some s)
      (kind : s.kind ≠ .object) (binding : v ∈ s.bindings.values) (handle : id ∈ v.objects)
  | prior {v : Value} (was : IsPrior a.journal v) (handle : id ∈ v.objects)

/-- The scopes are live objects, and each of them is rooted or held by a binding of one of them. -/
def KeptTogether (a : Arena ο) (held : List Value) (group : ScopeId → Prop) : Prop :=
  ∀ id, group id → ∃ s, a.scope? id = some s ∧ s.kind = .object ∧
    (a.Rooted held id ∨
      ∃ other t, group other ∧ a.scope? other = some t ∧ HeldBy t.bindings.values id)

/-- The object is one of some group that is kept together. -/
def Kept (a : Arena ο) (held : List Value) (id : ScopeId) : Prop :=
  ∃ group, a.KeptTogether held group ∧ group id

/-- The kept objects are such a group themselves, so they are the largest one. -/
theorem keptTogether_kept (a : Arena ο) (held : List Value) :
    a.KeptTogether held (a.Kept held) := by
  rintro id ⟨group, together, member⟩
  obtain ⟨s, live, object, holder⟩ := together id member
  refine ⟨s, live, object, holder.imp_right ?_⟩
  rintro ⟨other, t, known, there, binds⟩
  exact ⟨other, t, ⟨group, together, known⟩, there, binds⟩

/-! ### What stays -/

/-- Which objects are orphans depends on who is held in all, and not on who holds them. -/
theorem orphans_congr {a : Arena ο} {held others : List Value}
    (same : ∀ id, HeldBy (held ++ a.heldValues) id ↔ HeldBy (others ++ a.heldValues) id) :
    a.orphans held = a.orphans others := by
  refine List.filter_congr fun index _ => ?_
  have marks : (a.supported (a.handles held))[index]?.getD false =
      (a.supported (a.handles others))[index]?.getD false := by
    rw [Bool.eq_iff_iff]
    simp only [supported_iff, mem_handles]
    constructor
    · rintro ⟨id, holder, live⟩
      exact ⟨id, (same id).1 holder, live⟩
    · rintro ⟨id, holder, live⟩
      exact ⟨id, (same id).2 holder, live⟩
  rw [marks]

@[simp] theorem journal_foldl_release (gone : List Nat) (a : Arena ο) :
    (gone.foldl release a).journal = a.journal := by
  induction gone generalizing a with
  | nil => rfl
  | cons index rest ih => rw [List.foldl_cons, ih, journal_release]

/-- What open lists keep counts as held anyhow, so it need not be told. -/
theorem reclaimRounds_append_priors (held : List Value) {priors : List Value} (bound : Nat)
    {a : Arena ο} (known : ∀ v ∈ priors, IsPrior a.journal v) :
    reclaimRounds (held ++ priors) bound a = reclaimRounds held bound a := by
  induction bound generalizing a with
  | zero => rfl
  | succ bound ih =>
    have same : a.orphans (held ++ priors) = a.orphans held := by
      refine orphans_congr fun id => ?_
      constructor
      · rintro ⟨v, mem, handle⟩
        refine ⟨v, ?_, handle⟩
        simp only [List.mem_append] at mem ⊢
        obtain (mem | prior) | mem := mem
        · exact .inl mem
        · exact .inr (mem_heldValues.2 (.inr (known v prior)))
        · exact .inr mem
      · exact HeldBy.mono fun v mem => by
          simp only [List.mem_append] at mem ⊢
          exact mem.imp_left .inl
    simp only [reclaimRounds, same]
    rw [ih (by simpa using known)]

/-- A group that is kept together is sustained by those who hold values and by the open lists, along
with all scopes that are no objects. -/
theorem KeptTogether.sustained {a : Arena ο} {held : List Value} {group : ScopeId → Prop}
    (h : a.KeptTogether held group) {priors : List Value}
    (all : ∀ v, IsPrior a.journal v → v ∈ priors) :
    a.Sustained (held ++ priors) fun id =>
      group id ∨ ∃ s, a.scope? id = some s ∧ s.kind ≠ .object := by
  rintro id (member | ⟨s, live, other⟩)
  · obtain ⟨s, live, -, rooted | ⟨other, t, known, there, binds⟩⟩ := h id member
    · refine ⟨s, live, fun _ => ?_⟩
      cases rooted with
      | @outside v mem handle => exact .inl ⟨v, List.mem_append_left _ mem, handle⟩
      | @bound scope t v there kind binding handle =>
        exact .inr ⟨scope, t, .inr ⟨t, there, kind⟩, there, v, binding, handle⟩
      | @prior v was handle => exact .inl ⟨v, List.mem_append_right _ (all v was), handle⟩
    · exact ⟨s, live, fun _ => .inr ⟨other, t, .inl known, there, binds⟩⟩
  · exact ⟨s, live, fun object => absurd object other⟩

/-- A group that is kept together stays, and so does every scope that is no object. -/
theorem KeptTogether.scope?_reclaim {a : Arena ο} {held : List Value} {group : ScopeId → Prop}
    (h : a.KeptTogether held group) {id : ScopeId}
    (member : group id ∨ ∃ s, a.scope? id = some s ∧ s.kind ≠ .object) :
    (a.reclaim held).2.scope? id = a.scope? id := by
  let priors : List Value :=
    a.journal.flatMap fun frame => frame.touched.values.filterMap (·.prior)
  have known : ∀ v, v ∈ priors ↔ IsPrior a.journal v := by
    simp [priors, IsPrior]
  have same : a.reclaim (held ++ priors) = a.reclaim held :=
    reclaimRounds_append_priors held a.liveCount fun v mem => (known v).1 mem
  rw [← same]
  exact (h.sustained fun v was => (known v).2 was).scope?_reclaim member

/-- A scope stays what it was, unless it is an object that is not kept. -/
theorem scope?_reclaim_of_kept {a : Arena ο} {held : List Value} {id : ScopeId}
    (kept : ∀ s, a.scope? id = some s → s.kind = .object → a.Kept held id) :
    (a.reclaim held).2.scope? id = a.scope? id := by
  cases live : a.scope? id with
  | none =>
    obtain same | ⟨⟨s, here, -⟩, -⟩ := Arena.scope?_reclaim held a id
    · exact same.trans live
    · rw [live] at here
      cases here
  | some s =>
    rw [← live]
    by_cases object : s.kind = .object
    · exact (a.keptTogether_kept held).scope?_reclaim (.inl (kept s live object))
    · exact (a.keptTogether_kept held).scope?_reclaim (.inr ⟨s, live, object⟩)

/-! ### What does not -/

/-- The objects that stay are kept together: in the end each of them has a holder, and the holders
stay as well. -/
theorem WellFormed.keptTogether_reclaim {a : Arena ο} (h : a.WellFormed) (held : List Value) :
    a.KeptTogether held fun id =>
      ∃ s, (a.reclaim held).2.scope? id = some s ∧ s.kind = .object := by
  have before : ∀ {id t}, (a.reclaim held).2.scope? id = some t → a.scope? id = some t := by
    intro id t there
    obtain same | ⟨-, gone, -⟩ := Arena.scope?_reclaim held a id
    · rwa [same] at there
    · rw [gone] at there
      cases there
  rintro id ⟨s, live, object⟩
  refine ⟨s, before live, object, ?_⟩
  obtain ⟨v, mem, handle⟩ := h.heldBy_of_reclaim live object
  obtain mem | mem := List.mem_append.1 mem
  · exact .inl (.outside mem handle)
  · obtain ⟨other, t, there, binding⟩ | was := mem_heldValues.1 mem
    · by_cases kind : t.kind = .object
      · exact .inr ⟨other, t, ⟨t, there, kind⟩, before there, v, binding, handle⟩
      · exact .inl (.bound (before there) kind binding handle)
    · rw [(a.turnovers_reclaim held).journal_eq] at was
      exact .inl (.prior was handle)

/-- An object that is not kept does not stay. -/
theorem WellFormed.scope?_reclaim_of_not_kept {a : Arena ο} (h : a.WellFormed) {held : List Value}
    {id : ScopeId} {s : Scope ο} (live : a.scope? id = some s) (object : s.kind = .object)
    (free : ¬ a.Kept held id) : (a.reclaim held).2.scope? id = none := by
  obtain same | ⟨-, gone, -⟩ := Arena.scope?_reclaim held a id
  · exact absurd ⟨_, h.keptTogether_reclaim held, s, same.trans live, object⟩ free
  · exact gone

/-! ### Rounds and their count -/

/-- What rounds come to that go on as long as there is an object that nobody holds: how many objects
they release, and the arena that they leave behind. -/
inductive Rounds (held : List Value) : Arena ο → Nat → Arena ο → Prop where
  | done {a : Arena ο} (none : a.orphans held = []) : Rounds held a 0 a
  | round {a b : Arena ο} {count : Nat} (some : a.orphans held ≠ [])
      (rest : Rounds held ((a.orphans held).foldl release a) count b) :
      Rounds held a ((a.orphans held).length + count) b

/-- By induction on the bound: as many rounds as there are scopes are enough, since every round but
the last releases one. -/
theorem WellFormed.rounds_reclaimRounds {held : List Value} (bound : Nat) {a : Arena ο}
    (h : a.WellFormed) (enough : a.liveCount ≤ bound) :
    Rounds held a (reclaimRounds held bound a).1 (reclaimRounds held bound a).2 := by
  induction bound generalizing a with
  | zero =>
    have some := h.liveCount_pos
    omega
  | succ bound ih =>
    simp only [reclaimRounds]
    split
    · rename_i none
      exact .done (List.isEmpty_iff.1 none)
    · rename_i some
      have some : a.orphans held ≠ [] := fun none => some (List.isEmpty_iff.2 none)
      have fewer := h.liveCount_foldl_release_orphans held
      have gone := List.length_pos_iff.2 some
      exact .round some (ih (h.foldl_release_orphans held) (by omega))

/-- The count is that of the scopes that are missing afterwards. -/
theorem Rounds.count_add_liveCount {held : List Value} {a b : Arena ο} {count : Nat}
    (rounds : Rounds held a count b) (h : a.WellFormed) : count + b.liveCount = a.liveCount := by
  induction rounds with
  | done none => omega
  | round some rest ih =>
    have fewer := h.liveCount_foldl_release_orphans held
    have left := ih (h.foldl_release_orphans held)
    omega

theorem Rounds.orphans_eq_nil {held : List Value} {a b : Arena ο} {count : Nat}
    (rounds : Rounds held a count b) : b.orphans held = [] := by
  induction rounds with
  | done none => exact none
  | round some rest ih => exact ih

theorem reclaim_of_orphans_eq_nil {a : Arena ο} {held : List Value} (none : a.orphans held = []) :
    a.reclaim held = (0, a) := by
  unfold reclaim
  cases a.liveCount with
  | zero => rfl
  | succ bound => simp only [reclaimRounds, none, List.isEmpty_nil, if_true]

/-- What has an object after releases had it before, and was not released. -/
theorem hasObject_of_foldl_release {gone : List Nat} {a : Arena ο} {index : Nat}
    (h : (gone.foldl release a).hasObject index = true) :
    index ∉ gone ∧ a.hasObject index = true := by
  obtain ⟨generation, s, found, object⟩ := (hasObject_iff _ _).1 h
  have there := scope?_foldl_release gone a ⟨index, generation⟩
  rw [(scope?_eq_some_iff _ ⟨index, generation⟩ s).2 found] at there
  split at there
  · cases there
  · rename_i spared
    have here := (a.scope?_eq_some_iff ⟨index, generation⟩ s).1 there.symm
    exact ⟨spared, (hasObject_iff _ _).2 ⟨generation, s, here, object⟩⟩

/-- By induction on the rounds: the slots that are released had objects, and none of them is
released twice. -/
theorem nodup_reclaimedSlots (held : List Value) (bound : Nat) (a : Arena ο) :
    (a.reclaimedSlots held bound).Nodup ∧
      ∀ index ∈ a.reclaimedSlots held bound, a.hasObject index = true := by
  induction bound generalizing a with
  | zero => exact ⟨List.nodup_nil, fun index mem => by cases mem⟩
  | succ bound ih =>
    simp only [reclaimedSlots]
    split
    · exact ⟨List.nodup_nil, fun index mem => by cases mem⟩
    · obtain ⟨nodup, objects⟩ := ih ((a.orphans held).foldl release a)
      have first : (a.orphans held).Nodup := List.nodup_range.filter _
      have later := fun index mem => hasObject_of_foldl_release (objects index mem)
      refine ⟨List.nodup_append.2 ⟨first, nodup, ?_⟩, fun index mem => ?_⟩
      · rintro index orphan other mem rfl
        exact (later index mem).1 orphan
      · obtain orphan | mem := List.mem_append.1 mem
        · simp only [orphans, List.mem_filter, Bool.and_eq_true] at orphan
          exact orphan.2.1
        · exact (later index mem).2

/-- Slots that have objects are the slots of objects. -/
theorem exists_objects_of_slots (a : Arena ο) (slots : List Nat)
    (objects : ∀ index ∈ slots, a.hasObject index = true) :
    ∃ gone : List ScopeId, gone.map ScopeId.index = slots ∧
      ∀ id ∈ gone, ∃ s, a.scope? id = some s ∧ s.kind = .object := by
  induction slots with
  | nil => exact ⟨[], rfl, fun id mem => by cases mem⟩
  | cons index rest ih =>
    obtain ⟨generation, s, found, object⟩ := (a.hasObject_iff index).1 (objects index (by simp))
    obtain ⟨gone, same, known⟩ := ih fun i mem => objects i (by simp [mem])
    have live : a.scope? ⟨index, generation⟩ = some s := (a.scope?_eq_some_iff _ s).2 found
    refine ⟨⟨index, generation⟩ :: gone, by rw [List.map_cons, same], fun id mem => ?_⟩
    obtain rfl | mem := List.mem_cons.1 mem
    · exact ⟨s, live, object⟩
    · exact known id mem

/-- What a reclaim answers is the number of objects that it releases. -/
theorem exists_released (a : Arena ο) (held : List Value) :
    ∃ gone : List ScopeId, gone.Nodup ∧ gone.length = (a.reclaim held).1 ∧
      ∀ id, id ∈ gone ↔ (∃ s, a.scope? id = some s ∧ s.kind = .object) ∧
        (a.reclaim held).2.scope? id = none := by
  obtain ⟨nodup, objects⟩ := nodup_reclaimedSlots held a.liveCount a
  obtain ⟨gone, same, known⟩ := a.exists_objects_of_slots _ objects
  have after := scope?_foldl_release (a.reclaimedSlots held a.liveCount) a
  rw [← snd_reclaim, ← same] at after
  refine ⟨gone, List.Nodup.of_map ScopeId.index (same ▸ nodup), ?_, fun id => ?_⟩
  · rw [reclaim, reclaimRounds_eq, ← same, List.length_map]
  · constructor
    · intro mem
      exact ⟨known id mem, by rw [after, if_pos (List.mem_map_of_mem mem)]⟩
    · rintro ⟨⟨s, live, -⟩, missing⟩
      rw [after, live] at missing
      split at missing
      · rename_i released
        obtain ⟨other, mem, slot⟩ := List.mem_map.1 released
        obtain ⟨t, there, -⟩ := known other mem
        exact eq_of_index_eq there live slot ▸ mem
      · cases missing

end Fluent.Arena

namespace Fluent.Operation

open Arena

/-- Two objects that hold one another, and two of which the first holds the second. All handles to
them are dropped after that. -/
def ringAndChain : List (Operation Unit) :=
  let object (index : Nat) : Value := .object ⟨index, 0⟩
  [.newObject [] none, .newObject [object 1] none, .newObject [object 1, object 2] none,
    .newObject [object 1, object 2, object 3] none, .define ⟨1, 0⟩ "other" (object 2),
    .define ⟨2, 0⟩ "other" (object 1), .define ⟨3, 0⟩ "next" (object 4)]

end Fluent.Operation

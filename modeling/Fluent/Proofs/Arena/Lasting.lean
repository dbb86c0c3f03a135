import Fluent.Proofs.Arena.Activity

/-!
# Handles that keep their meaning

A slot is used again under its next generation, and generations come round after `2 ^ 32` scopes. A
handle is lasting if it is live, or if none of the scopes that are made next gets it.

Main statements: `Changes.origin`, where the scopes come from that are there after changes;
`Issued.lasting`, handles that were given out are lasting as long as generations do not come round.
-/
namespace Fluent

/-- The value mentions the scope. -/
inductive Value.Refers : Value → ScopeId → Prop where
  | object (id : ScopeId) : Refers (.object id) id
  | closure {f : Function} {parameters : List String} {body : Expr} {id : ScopeId}
      (h : f.body = .expression parameters body (some id)) : Refers (.function f) id
  | item {items : List Value} {v : Value} {id : ScopeId} (mem : v ∈ items) (h : Refers v id) :
      Refers (.array items) id
  | argument {identity : Nat} {chain : Chain Value} {call : Call Value} {argument : Argument Value}
      {id : ScopeId} (hcall : call ∈ chain.root :: chain.modifiers)
      (mem : argument ∈ call.arguments) (h : Refers argument.value id) :
      Refers (.artifact ⟨identity, .view chain⟩) id
  | member {t : RuntimeType Value} {name : String} {v : Value} {id : ScopeId}
      (found : t.members.find? name = some v) (h : Refers v id) : Refers (.type t) id

namespace Arena

variable {ο : Type}

/-- The arena mentions the scope: as a parent, in a value that is bound or was bound before an open
list's first write, or as the scope of a binding that was written while a list was open. -/
inductive Mentions (a : Arena ο) (id : ScopeId) : Prop where
  | parent {child : ScopeId} {s : Scope ο} (live : a.scope? child = some s)
      (h : s.parent = some id)
  | stored {scope : ScopeId} {name : String} {v : Value} (h : a.stored? scope name = some v)
      (refers : v.Refers id)
  | prior {frame : Frame} {place : Place} {w : Written} {v : Value} (hf : frame ∈ a.journal)
      (found : frame.touched.find? place = some w) (h : w.prior = some v) (refers : v.Refers id)
  | touched {frame : Frame} {name : String} {w : Written} (hf : frame ∈ a.journal)
      (found : frame.touched.find? ⟨id, name⟩ = some w)

/-- With a global scope only, what is mentioned is mentioned in its bindings. -/
theorem exists_of_mentions_ofGlobals {policy : AssignmentPolicy}
    {bindings : List (String × Value)} {id : ScopeId}
    (h : (ofGlobals policy bindings : Arena ο).Mentions id) : ∃ b ∈ bindings, b.2.Refers id := by
  have only : ∀ {other : ScopeId} {s : Scope ο},
      (ofGlobals policy bindings : Arena ο).scope? other = some s →
      s.parent = none ∧ s.bindings = .ofList bindings := by
    intro other s live
    rw [scope?_eq_some_iff] at live
    cases hi : other.index with
    | zero =>
      simp only [ofGlobals, hi, List.getElem?_toArray, List.getElem?_cons_zero, Option.some.injEq,
        Slot.mk.injEq] at live
      rw [← live.2]
      exact ⟨rfl, rfl⟩
    | succ index => simp [ofGlobals, hi] at live
  cases h with
  | parent live hp =>
    rw [(only live).1] at hp
    cases hp
  | @stored scope name v found refers =>
    obtain ⟨s, live, bound⟩ := Option.bind_eq_some_iff.1 found
    rw [(only live).2] at bound
    exact ⟨(name, v), Table.mem_of_find?_ofList bound, refers⟩
  | prior hf => cases hf
  | touched hf => cases hf

/-- The generation of the next scope that is made in the slot. -/
def nextGeneration (a : Arena ο) (index : Nat) : UInt32 :=
  match a.slots[index]? with
  | some ⟨generation, none⟩ => generation
  | some ⟨generation, some _⟩ => generation + 1
  | none => 0

/-- While so many more scopes are made, the handle is live or is given to none of them. -/
def Lasting (a : Arena ο) (more : Nat) (id : ScopeId) : Prop :=
  a.isLive id = true ∨
    ∀ k < more, id.generation ≠ a.nextGeneration id.index + UInt32.ofNat k

theorem nextGeneration_put {a : Arena ο} {id : ScopeId} {s : Scope ο} (live : a.scope? id = some s)
    (t : Scope ο) (index : Nat) : (a.put id t).nextGeneration index = a.nextGeneration index := by
  rw [scope?_eq_some_iff] at live
  unfold nextGeneration
  rw [getElem?_slots_put]
  by_cases same : id.index = index
  · subst same
    rw [if_pos rfl, live]
    rfl
  · rw [if_neg same]

/-- A release leaves the slot the generation that comes next. -/
theorem nextGeneration_release {a : Arena ο} {id : ScopeId} {s : Scope ο}
    (live : a.scope? id = some s) (index : Nat) :
    (a.release id.index).nextGeneration index = a.nextGeneration index := by
  rw [scope?_eq_some_iff] at live
  unfold nextGeneration
  rw [getElem?_slots_release]
  by_cases same : id.index = index
  · subst same
    rw [if_pos rfl, live]
    rfl
  · rw [if_neg same]

theorem WellFormed.generation_fst_allocate {a : Arena ο} (h : a.WellFormed) (s : Scope ο) :
    (a.allocate s).1.generation = a.nextGeneration (a.allocate s).1.index := by
  unfold nextGeneration
  obtain found | ⟨found, zero⟩ := h.getElem?_fst_allocate s
  · rw [found]
  · rw [found, zero]

theorem WellFormed.nextGeneration_allocate {a : Arena ο} (h : a.WellFormed) (s : Scope ο)
    (index : Nat) :
    (a.allocate s).2.nextGeneration index =
      if index = (a.allocate s).1.index then a.nextGeneration index + 1
      else a.nextGeneration index := by
  have taken := h.generation_fst_allocate s
  by_cases same : index = (a.allocate s).1.index
  · rw [if_pos same, same, ← taken, nextGeneration, h.getElem?_slots_allocate, if_pos rfl]
  · rw [if_neg same, nextGeneration, h.getElem?_slots_allocate, if_neg same, nextGeneration]

/-- In each slot the generations go on by at most as many as scopes are made. -/
theorem Turnover.exists_nextGeneration {a b : Arena ο} (h : Turnover a b) (wf : a.WellFormed)
    (index : Nat) :
    ∃ k, k + a.clock ≤ b.clock ∧
      b.nextGeneration index = a.nextGeneration index + UInt32.ofNat k := by
  cases h with
  | observe live observers => exact ⟨0, by simp, by simp [nextGeneration_put live]⟩
  | release live hk => exact ⟨0, by simp, by simp [nextGeneration_release live]⟩
  | @make kind hk parent =>
    rw [wf.nextGeneration_allocate, clock_allocate]
    split
    · exact ⟨1, by omega, rfl⟩
    · exact ⟨0, by omega, by simp⟩
  | policy policy => exact ⟨0, by simp, by simp [nextGeneration]⟩

theorem Change.exists_nextGeneration {a b : Arena ο} (h : Change a b) (wf : a.WellFormed)
    (index : Nat) :
    ∃ k, k + a.clock ≤ b.clock ∧
      b.nextGeneration index = a.nextGeneration index + UInt32.ofNat k := by
  have clock := h.clock_le
  cases h with
  | @write id s live name value =>
    have same : (a.written id s name value).nextGeneration index = a.nextGeneration index :=
      nextGeneration_put live { s with bindings := s.bindings.insert name value } index
    exact ⟨0, by simpa using clock, by simp [same]⟩
  | turnover h => exact h.exists_nextGeneration wf index
  | openArguments => exact ⟨0, by simpa using clock, by simp [nextGeneration, Arena.openArguments]⟩
  | beginArgument i =>
    exact ⟨0, by simp, by simp [nextGeneration]⟩
  | closeArguments => exact ⟨0, by simpa using clock, by simp [nextGeneration, Arena.closeArguments]⟩

theorem Changes.exists_nextGeneration {a b : Arena ο} (h : Changes a b) (wf : a.WellFormed)
    (index : Nat) :
    ∃ k, k + a.clock ≤ b.clock ∧
      b.nextGeneration index = a.nextGeneration index + UInt32.ofNat k := by
  induction h with
  | refl => exact ⟨0, by simp, by simp⟩
  | tail before step ih =>
    obtain ⟨k, hk, same⟩ := ih
    obtain ⟨m, hm, next⟩ := step.exists_nextGeneration (Changes.wellFormed before wf) index
    refine ⟨k + m, by omega, ?_⟩
    rw [next, same, UInt32.ofNat_add, UInt32.add_assoc]

/-- A scope that is there after changes was there before, or it is new and its handle is one of
those that could be given out next. -/
theorem Changes.origin {a b : Arena ο} (h : Changes a b) (wf : a.WellFormed) {id : ScopeId}
    {t : Scope ο} (there : b.scope? id = some t) :
    (∃ s, a.scope? id = some s ∧ s.Akin t) ∨ a.clock < t.created ∧
      ∃ k, k + a.clock < b.clock ∧ id.generation = a.nextGeneration id.index + UInt32.ofNat k := by
  induction h generalizing t with
  | refl => exact .inl ⟨t, there, .refl t⟩
  | @tail b c before step ih =>
    have wfb := Changes.wellFormed before wf
    have clock := step.clock_le
    -- a scope that the step leaves what it is comes from where it came from before the step
    have known : ∀ u, b.scope? id = some u → u.Akin t → (∃ s, a.scope? id = some s ∧ s.Akin t) ∨
        a.clock < t.created ∧ ∃ k, k + a.clock < c.clock ∧
          id.generation = a.nextGeneration id.index + UInt32.ofNat k := by
      intro u here akin
      obtain ⟨s, first, akin'⟩ | ⟨new, k, hk, same⟩ := ih here
      · exact .inl ⟨s, first, akin'.trans akin⟩
      · exact .inr ⟨akin.created ▸ new, k, by omega, same⟩
    cases step with
    | write live name value =>
      obtain ⟨u, here, akin⟩ := exists_akin_of_written live there
      exact known u here akin
    | turnover h =>
      cases h with
      | observe live observers =>
        rw [scope?_put _ _ _ _ ((isLive_iff _ _).2 ⟨_, live⟩)] at there
        split at there
        · rename_i same
          subst same
          cases there
          exact known _ live ⟨rfl, rfl, rfl⟩
        · exact known t there (.refl t)
      | release live hk =>
        rw [scope?_release] at there
        split at there
        · cases there
        · exact known t there (.refl t)
      | @make kind hk parent =>
        rw [wfb.scope?_allocate] at there
        split at there
        · rename_i same
          subst same
          cases there
          obtain ⟨k, hk, next⟩ := Changes.exists_nextGeneration before wf
            (b.allocate (blank kind parent)).1.index
          have made : b.clock < (b.allocate (blank kind parent)).2.clock := by simp
          refine .inr ⟨?_, k, by omega, ?_⟩
          · show a.clock < b.clock + 1
            omega
          · rw [wfb.generation_fst_allocate, next]
        · exact known t there (.refl t)
      | policy policy => exact known t there (.refl t)
    | openArguments => exact known t there (.refl t)
    | beginArgument index => exact known t (by simpa using there) (.refl t)
    | closeArguments => exact known t there (.refl t)

/-- A handle that was given out is lasting, until generations could come round. -/
theorem Issued.lasting {a : Arena ο} (wf : a.WellFormed) {id : ScopeId} {created more : Nat}
    (h : a.Issued id created) (few : a.clock + more + 1 < 2 ^ 32) : a.Lasting more id := by
  obtain ⟨⟨generation, scope⟩, found, past | ⟨same, s, here, _⟩⟩ := h
  · refine .inr fun k hk equal => ?_
    have tenants := wf.tenants_le _ _ found
    -- generations below the slot's own are not reached again
    have next : a.nextGeneration id.index = generation ∨
        a.nextGeneration id.index = generation + 1 := by
      unfold nextGeneration
      rw [found]
      cases scope with
      | none => exact .inl rfl
      | some s => exact .inr rfl
    simp only [Slot.tenants] at tenants past
    have value := congrArg UInt32.toNat equal
    have small : (UInt32.ofNat k).toNat = k := UInt32.toNat_ofNat_of_lt' (by show k < 2 ^ 32; omega)
    obtain next | next := next
    · rw [next, UInt32.toNat_add, small] at value
      omega
    · rw [next, UInt32.toNat_add, UInt32.toNat_add, small] at value
      have one : (1 : UInt32).toNat = 1 := rfl
      omega
  · left
    rw [isLive_iff]
    refine ⟨s, ?_⟩
    simp only at same here
    rw [scope?_eq_some_iff, found, same, here]

end Arena

end Fluent

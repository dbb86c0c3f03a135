import Mathlib.Data.List.Nodup
import Fluent.Proofs.Arena.Activity

/-!
# The search for a binding

The search goes from scope to scope outward and is given a bound. A way outward that comes to a
binding comes to it without passing any scope twice, and there are no more scopes than the bound
allows, so the bound never ends a search that would find something.
-/
namespace Fluent.Arena

variable {ο : Type}

/-- The list is a way outward that ends where the name is bound: it passes live scopes only, none of
them twice, and from each of them the search finds the end in as many steps as there are left. -/
structure Way (a : Arena ο) (name : String) (owner : ScopeId) (way : List ScopeId) : Prop where
  nodup : way.Nodup
  live : ∀ id ∈ way, a.isLive id = true
  found : ∀ id rest, id :: rest <:+ way →
    a.resolveWithin? name (rest.length + 1) id = some owner

theorem Way.suffix {a : Arena ο} {name : String} {owner : ScopeId} {way part : List ScopeId}
    (h : a.Way name owner way) (hp : part <:+ way) : a.Way name owner part where
  nodup := h.nodup.sublist hp.sublist
  live id hid := h.live id (hp.subset hid)
  found id rest hr := h.found id rest (hr.trans hp)

/-- Whatever a search finds, it finds on a way that passes no scope twice. If the way comes back to
its start, the part before that is left out. -/
theorem exists_way {a : Arena ο} {name : String} {owner : ScopeId} {bound : Nat} {id : ScopeId}
    (h : a.resolveWithin? name bound id = some owner) :
    ∃ rest, a.Way name owner (id :: rest) := by
  induction bound generalizing id with
  | zero => cases h
  | succ bound ih =>
    rw [resolveWithin?] at h
    cases live : a.scope? id with
    | none =>
      rw [live] at h
      cases h
    | some s =>
      have hlive : a.isLive id = true := (a.isLive_iff id).2 ⟨s, live⟩
      simp only [live] at h
      split at h
      · rename_i binds
        cases h
        refine ⟨[], by simp, by simpa using hlive, ?_⟩
        intro other rest hs
        have hl := hs.length_le
        have hm := hs.subset List.mem_cons_self
        simp only [List.length_cons, List.length_nil] at hl
        obtain rfl := List.mem_singleton.1 hm
        obtain rfl : rest = [] := List.length_eq_zero_iff.1 (by omega)
        simp [resolveWithin?, live, binds]
      · rename_i unbound
        obtain ⟨p, hp, inner⟩ := Option.bind_eq_some_iff.1 h
        obtain ⟨rest, way⟩ := ih inner
        by_cases again : id ∈ p :: rest
        · obtain ⟨before, after, split⟩ := List.append_of_mem again
          exact ⟨after, way.suffix ⟨before, split.symm⟩⟩
        · refine ⟨p :: rest, List.nodup_cons.2 ⟨again, way.nodup⟩, ?_, ?_⟩
          · intro other ho
            obtain rfl | ho := List.mem_cons.1 ho
            · exact hlive
            · exact way.live other ho
          · intro other more hs
            obtain same | hs := List.suffix_cons_iff.1 hs
            · cases same
              have onward := way.found p rest (List.suffix_refl _)
              rw [List.length_cons, resolveWithin?]
              simp [live, unbound, hp, onward]
            · exact way.found other more hs

/-- With a larger bound the search finds what it finds with a smaller one. -/
theorem resolveWithin?_mono {a : Arena ο} {name : String} {owner : ScopeId} {bound more : Nat}
    {id : ScopeId} (h : a.resolveWithin? name bound id = some owner) (hle : bound ≤ more) :
    a.resolveWithin? name more id = some owner := by
  induction bound generalizing id more with
  | zero => cases h
  | succ bound ih =>
    obtain ⟨more, rfl⟩ : ∃ m, more = m + 1 := ⟨more - 1, by omega⟩
    rw [resolveWithin?] at h ⊢
    cases live : a.scope? id with
    | none =>
      rw [live] at h
      cases h
    | some s =>
      simp only [live] at h ⊢
      split at h
      · rename_i binds
        simpa [binds] using h
      · rename_i unbound
        obtain ⟨p, hp, inner⟩ := Option.bind_eq_some_iff.1 h
        simp [unbound, hp, ih inner (Nat.le_of_succ_le_succ hle)]

theorem nodup_map_index {a : Arena ο} {handles : List ScopeId} (nodup : handles.Nodup)
    (live : ∀ id ∈ handles, a.isLive id = true) : (handles.map ScopeId.index).Nodup := by
  refine nodup.map_on fun id mem other mem' same => ?_
  obtain ⟨s, here⟩ := (a.isLive_iff id).1 (live id mem)
  obtain ⟨t, there⟩ := (a.isLive_iff other).1 (live other mem')
  exact eq_of_index_eq here there same

/-- No way is longer than there are slots. -/
theorem Way.length_le {a : Arena ο} {name : String} {owner : ScopeId} {way : List ScopeId}
    (h : a.Way name owner way) : way.length ≤ a.slots.size := by
  have subset : way.map ScopeId.index ⊆ List.range a.slots.size := by
    intro i hi
    obtain ⟨id, hid, rfl⟩ := List.mem_map.1 hi
    exact List.mem_range.2 (index_lt_of_isLive (h.live id hid))
  have hle := (nodup_map_index h.nodup h.live).length_le_of_subset subset
  simpa using hle

/-- No larger bound lets the search find more. -/
theorem WellFormed.resolveWithin?_eq {a : Arena ο} (h : a.WellFormed) {bound : Nat}
    (hle : a.clock + 1 ≤ bound) (name : String) (id : ScopeId) :
    a.resolveWithin? name bound id = a.resolve? id name := by
  cases more : a.resolveWithin? name bound id with
  | some owner =>
    obtain ⟨rest, way⟩ := exists_way more
    have found := way.found id rest (List.suffix_refl _)
    have short := way.length_le
    have size := h.size_le
    simp only [List.length_cons] at short
    exact (resolveWithin?_mono found (by omega)).symm
  | none =>
    cases within : a.resolve? id name with
    | none => rfl
    | some owner =>
      rw [resolveWithin?_mono within hle] at more
      cases more

end Fluent.Arena

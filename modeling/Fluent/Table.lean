/-!
# Tables

A table binds keys to values in the order in which the keys were first bound. Binding a key again
replaces its value where it stands, so no key is bound twice.
-/
namespace Fluent

/-- Keys and their values, in the order of first binding. -/
structure Table (κ α : Type) where
  entries : List (κ × α) := []

namespace Table

variable {κ α : Type}

def keys (t : Table κ α) : List κ :=
  t.entries.map Prod.fst

def values (t : Table κ α) : List α :=
  t.entries.map Prod.snd

variable [DecidableEq κ]

/-- The value of the first entry with the key. -/
@[specialize]
def lookup (key : κ) : List (κ × α) → Option α
  | [] => none
  | (k, a) :: rest => if k = key then some a else lookup key rest

/-- The entries with the value at the key, which comes last if it is new. -/
@[specialize]
def bind (key : κ) (value : α) : List (κ × α) → List (κ × α)
  | [] => [(key, value)]
  | (k, a) :: rest => if k = key then (key, value) :: rest else (k, a) :: bind key value rest

@[inline]
def find? (t : Table κ α) (key : κ) : Option α :=
  lookup key t.entries

def contains (t : Table κ α) (key : κ) : Bool :=
  (t.find? key).isSome

/-- Binds the key, in its old place if it has one. -/
@[inline]
def insert (t : Table κ α) (key : κ) (value : α) : Table κ α :=
  ⟨bind key value t.entries⟩

/-- The table of these bindings, of which a later one replaces an earlier one. -/
def ofList (entries : List (κ × α)) : Table κ α :=
  entries.foldl (fun t (k, a) => t.insert k a) {}

@[simp] theorem find?_empty (key : κ) : ({} : Table κ α).find? key = none := rfl

/-- A key reads as what it was bound to last. -/
theorem find?_insert (t : Table κ α) (key other : κ) (value : α) :
    (t.insert key value).find? other = if key = other then some value else t.find? other := by
  obtain ⟨entries⟩ := t
  simp only [insert, find?]
  induction entries with
  | nil => simp [bind, lookup]
  | cons entry rest ih =>
    obtain ⟨k, a⟩ := entry
    by_cases hk : k = key
    · subst hk
      by_cases ho : k = other <;> simp [bind, lookup, ho]
    · by_cases ho : k = other
      · subst ho
        simp [bind, lookup, hk, Ne.symm hk]
      · simp [bind, lookup, hk, ho, ih]

@[simp] theorem find?_insert_self (t : Table κ α) (key : κ) (value : α) :
    (t.insert key value).find? key = some value := by
  simp [find?_insert]

theorem find?_insert_of_ne (t : Table κ α) {key other : κ} (value : α) (h : key ≠ other) :
    (t.insert key value).find? other = t.find? other := by
  simp [find?_insert, h]

/-- What a table of bindings binds is among them. -/
theorem mem_of_find?_ofList {entries : List (κ × α)} {key : κ} {value : α}
    (h : (ofList entries).find? key = some value) : (key, value) ∈ entries := by
  have grow : ∀ (rest : List (κ × α)) (t : Table κ α),
      (rest.foldl (fun t (k, a) => t.insert k a) t).find? key = some value →
        t.find? key = some value ∨ (key, value) ∈ rest := by
    intro rest
    induction rest with
    | nil => exact fun t found => .inl found
    | cons entry rest ih =>
      intro t found
      obtain known | member := ih _ found
      · rw [find?_insert] at known
        split at known
        · rename_i same
          cases known
          exact .inr (by simp [← same])
        · exact .inl known
      · exact .inr (List.mem_cons_of_mem _ member)
  obtain absurd | member := grow entries {} h
  · cases absurd
  · exact member

/-- A key is bound exactly if it is among the keys. -/
theorem contains_iff (t : Table κ α) (key : κ) : t.contains key = true ↔ key ∈ t.keys := by
  obtain ⟨entries⟩ := t
  simp only [contains, find?, keys]
  induction entries with
  | nil => simp [lookup]
  | cons entry rest ih =>
    obtain ⟨k, a⟩ := entry
    by_cases hk : k = key
    · simp [lookup, hk]
    · simp [lookup, hk, ih, Ne.symm hk]

/-- Binding a new key puts it after the others, and binding an old one keeps their order. -/
theorem keys_insert (t : Table κ α) (key : κ) (value : α) :
    (t.insert key value).keys = if t.contains key then t.keys else t.keys ++ [key] := by
  obtain ⟨entries⟩ := t
  simp only [contains, find?, keys, insert]
  induction entries with
  | nil => simp [bind, lookup]
  | cons entry rest ih =>
    obtain ⟨k, a⟩ := entry
    by_cases hk : k = key
    · simp [bind, lookup, hk]
    · simp only [bind, hk, if_false, List.map_cons, lookup]
      rw [ih]
      split <;> simp_all

/-- No key becomes bound twice. -/
theorem nodup_keys_insert (t : Table κ α) (key : κ) (value : α) (h : t.keys.Nodup) :
    (t.insert key value).keys.Nodup := by
  rw [keys_insert]
  split
  · exact h
  · rename_i free
    rw [contains_iff] at free
    rw [List.nodup_append]
    refine ⟨h, by simp, ?_⟩
    rintro a ha b hb rfl
    simp only [List.mem_singleton] at hb
    exact free (hb ▸ ha)

end Table

end Fluent

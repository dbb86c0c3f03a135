import Fluent.Proofs.Arena.Custody

/-!
# Where values come from

A value that is put together from others brings in no handle and no native function that those did
not have. A function can be got out of a type, as one of its members, but what stands in an array or
in a view is not called.

Main statement: `stems_findLocal?`, what a binding reads as stems from the arena.
-/
namespace Fluent

/-- Code of the host. -/
def Function.isNative (f : Function) : Bool :=
  match f.body with
  | .native _ => true
  | .expression .. => false

namespace Value

mutual

/-- The value is a native function, or a type among whose members there is one at some depth. -/
def hasNative : Value → Bool
  | function f => f.isNative
  | type ⟨_, _, ⟨entries⟩, _⟩ => someHasNative entries
  | _ => false

/-- One of the members is or has a native function. -/
def someHasNative : List (String × Value) → Bool
  | [] => false
  | (_, v) :: rest => v.hasNative || someHasNative rest

end

/-- A type has the native functions that its members have. -/
theorem hasNative_of_member {t : RuntimeType Value} {v : Value} (mem : v ∈ t.members.values)
    (native : v.hasNative = true) : (Value.type t).hasNative = true := by
  obtain ⟨identity, name, ⟨entries⟩, builtIn⟩ := t
  simp only [hasNative, Table.values] at mem ⊢
  induction entries with
  | nil => cases mem
  | cons entry rest ih =>
    rw [List.map_cons, List.mem_cons] at mem
    simp only [someHasNative, Bool.or_eq_true]
    obtain rfl | mem := mem
    · exact .inl native
    · exact .inr (ih mem)

end Value

namespace Arena

variable {ο : Type}

/-- One of the values is or has a native function. -/
def SomeNative (values : List Value) : Prop :=
  ∃ v ∈ values, v.hasNative = true

@[simp, grind =] theorem someNative_nil : SomeNative [] ↔ False := by
  simp [SomeNative]

@[simp, grind =] theorem someNative_cons (v : Value) (values : List Value) :
    SomeNative (v :: values) ↔ v.hasNative = true ∨ SomeNative values := by
  simp [SomeNative]

@[simp, grind =] theorem someNative_append (values more : List Value) :
    SomeNative (values ++ more) ↔ SomeNative values ∨ SomeNative more := by
  simp [SomeNative, or_and_right, exists_or]

theorem SomeNative.mono {values others : List Value} (h : SomeNative values)
    (sub : ∀ v ∈ values, v ∈ others) : SomeNative others := by
  obtain ⟨v, mem, native⟩ := h
  exact ⟨v, sub v mem, native⟩

/-- The second values have no handles and no native functions but those that the first have. -/
@[grind]
def Stems (given values : List Value) : Prop :=
  Covers given values ∧ (SomeNative values → SomeNative given)

theorem Stems.covers {given values : List Value} (h : Stems given values) : Covers given values :=
  h.1

theorem stems_of_subset {given values : List Value} (h : ∀ v ∈ values, v ∈ given) :
    Stems given values :=
  ⟨covers_of_subset h, fun native => native.mono h⟩

theorem Stems.trans {values others more : List Value} (h : Stems values others)
    (h' : Stems others more) : Stems values more :=
  ⟨h.1.trans h'.1, fun native => h.2 (h'.2 native)⟩

theorem stems_nil (values : List Value) : Stems values [] := by
  grind

theorem Stems.left (values more : List Value) : Stems (values ++ more) values := by
  grind

theorem Stems.right (values more : List Value) : Stems (values ++ more) more := by
  grind

/-- A value without handles that has no native function stems from anything. -/
theorem stems_of_bare (given : List Value) {v : Value} (bare : v.objects = [])
    (plain : v.hasNative = false) : Stems given [v] := by
  grind

theorem stems_array (items : List Value) : Stems items [.array items] := by
  have plain : (Value.array items).hasNative = false := by simp [Value.hasNative]
  grind

theorem stems_findLocal? {a : Arena ο} {id : ScopeId} {name : String} {v : Value}
    (h : a.findLocal? id name = some v) : Stems a.heldValues [v] := by
  have held := mem_heldValues_of_readUnder (fun _ hf => hf) h
  exact stems_of_subset fun u mem => List.mem_singleton.1 mem ▸ held

end Arena

end Fluent

import Fluent.Value

/-!
# Handles to objects

An object lives as long as a handle to it is held. Handles stand in values: directly, as items of
arrays, as arguments of recorded views and as members of types.
-/
namespace Fluent

namespace Value

mutual

/-- The objects to which the value holds a handle. -/
def objects : Value → List ScopeId
  | object scope => [scope]
  | array items => objectsOfItems items
  | artifact ⟨_, .view ⟨⟨_, arguments⟩, modifiers⟩⟩ =>
    objectsOfArguments arguments ++ objectsOfCalls modifiers
  | type ⟨_, _, ⟨entries⟩, _⟩ => objectsOfEntries entries
  | _ => []

def objectsOfItems : List Value → List ScopeId
  | [] => []
  | v :: rest => v.objects ++ objectsOfItems rest

def objectsOfArguments : List (Argument Value) → List ScopeId
  | [] => []
  | ⟨_, v⟩ :: rest => v.objects ++ objectsOfArguments rest

def objectsOfCalls : List (Call Value) → List ScopeId
  | [] => []
  | ⟨_, arguments⟩ :: rest => objectsOfArguments arguments ++ objectsOfCalls rest

def objectsOfEntries : List (String × Value) → List ScopeId
  | [] => []
  | (_, v) :: rest => v.objects ++ objectsOfEntries rest

end

@[simp] theorem objectsOfItems_eq_flatMap (items : List Value) :
    objectsOfItems items = items.flatMap objects := by
  induction items with
  | nil => rfl
  | cons v rest ih => simp [objectsOfItems, ih]

@[simp] theorem objectsOfArguments_eq_flatMap (arguments : List (Argument Value)) :
    objectsOfArguments arguments = arguments.flatMap fun a => a.value.objects := by
  induction arguments with
  | nil => rfl
  | cons a rest ih => simp [objectsOfArguments, ih]

@[simp] theorem objectsOfCalls_eq_flatMap (calls : List (Call Value)) :
    objectsOfCalls calls =
      calls.flatMap fun c => c.arguments.flatMap fun a => a.value.objects := by
  induction calls with
  | nil => rfl
  | cons c rest ih => simp [objectsOfCalls, ih]

@[simp] theorem objectsOfEntries_eq_flatMap (entries : List (String × Value)) :
    objectsOfEntries entries = entries.flatMap fun e => e.2.objects := by
  induction entries with
  | nil => rfl
  | cons e rest ih => simp [objectsOfEntries, ih]

end Value

end Fluent

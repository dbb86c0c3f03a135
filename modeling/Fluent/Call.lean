/-!
# Calls and chains

A call names what is called and lists its arguments, each with a label or by position. A chain is
one call that makes a view and the calls that modify it, in the order in which they apply. What an
argument holds is left open: an expression in source text, a value in a recorded view, a deferred
evaluation in between.
-/
namespace Fluent

/-- One argument of a call. -/
structure Argument (α : Type) where
  label : Option String
  value : α
deriving Repr, DecidableEq

/-- A name applied to arguments. -/
structure Call (α : Type) where
  name : String
  arguments : List (Argument α)
deriving Repr, DecidableEq

/-- A call that makes a view, and its modifiers in the order in which they apply. -/
structure Chain (α : Type) where
  root : Call α
  modifiers : List (Call α)
deriving Repr, DecidableEq

namespace Argument

variable {α β : Type}

def map (f : α → β) (a : Argument α) : Argument β :=
  ⟨a.label, f a.value⟩

@[simp] theorem label_map (f : α → β) (a : Argument α) : (a.map f).label = a.label := rfl

@[simp] theorem value_map (f : α → β) (a : Argument α) : (a.map f).value = f a.value := rfl

/-- The value of the first argument with the label. -/
def labeled? (arguments : List (Argument α)) (label : String) : Option α :=
  (arguments.find? fun a => a.label == some label).map (·.value)

/-- The value of the argument at an index, counted among those without a label. -/
def positional? (arguments : List (Argument α)) (index : Nat) : Option α :=
  (arguments.filter fun a => a.label.isNone)[index]?.map (·.value)

end Argument

namespace Call

variable {α β : Type}

def map (f : α → β) (c : Call α) : Call β :=
  ⟨c.name, c.arguments.map (Argument.map f)⟩

end Call

namespace Chain

variable {α β : Type}

/-- A chain without modifiers. -/
def single (root : Call α) : Chain α :=
  ⟨root, []⟩

/-- The chain with one more modifier, which applies last. -/
def push (c : Chain α) (modifier : Call α) : Chain α :=
  ⟨c.root, c.modifiers ++ [modifier]⟩

def map (f : α → β) (c : Chain α) : Chain β :=
  ⟨c.root.map f, c.modifiers.map (Call.map f)⟩

@[simp] theorem root_push (c : Chain α) (m : Call α) : (c.push m).root = c.root := rfl

@[simp] theorem modifiers_push (c : Chain α) (m : Call α) :
    (c.push m).modifiers = c.modifiers ++ [m] := rfl

@[simp] theorem map_single (f : α → β) (root : Call α) :
    (single root).map f = single (root.map f) := rfl

@[simp] theorem map_push (f : α → β) (c : Chain α) (m : Call α) :
    (c.push m).map f = (c.map f).push (m.map f) := by
  simp [push, map]

end Chain

end Fluent

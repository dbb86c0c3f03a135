import Fluent.Expr.Printer
import Fluent.Value

/-!
# The text of a value

Numbers, texts and arrays are written as in source text. A recorded view is written as the chain
of calls that made it, and the views among its arguments are written in the same way; inside any
other value an artifact is opaque.
-/
namespace Fluent

namespace Value

/-- The text of a dotted reference. One name alone is an implicit member. -/
def pathChars : List String → List Char
  | [name] => '.' :: name.toList
  | names => ['.'].intercalate (names.map String.toList)

mutual

/-- The text of a value. -/
def chars : Value → List Char
  | int n => (Literal.integer n).chars
  | double x => (Literal.double x).chars
  | bool b => (Literal.boolean b).chars
  | string s => (Literal.string s).chars
  | array items => '[' :: commaSeparated (itemTexts items) ++ [']']
  | path names => pathChars names
  | artifact _ => "<artifact>".toList
  | function f => "<function ".toList ++ f.name.toList ++ ['>']
  | type t => "<type ".toList ++ t.name.toList ++ ['>']
  | object scope => "<instance #".toList ++ (toString scope.index).toList ++ ['>']

def itemTexts : List Value → List (List Char)
  | [] => []
  | v :: rest => v.chars :: itemTexts rest

end

@[simp] theorem itemTexts_eq_map (items : List Value) : itemTexts items = items.map chars := by
  induction items with
  | nil => rfl
  | cons v rest ih => simp [itemTexts, ih]

@[simp] theorem chars_ofLiteral (l : Literal) : (ofLiteral l).chars = l.chars := by
  cases l <;> rfl

mutual

/-- The text of a value that may be a view. -/
def described : Value → List Char
  | artifact ⟨_, .view ⟨⟨name, arguments⟩, modifiers⟩⟩ =>
    name.toList ++ '(' :: commaSeparated (describedArguments arguments) ++ ')' ::
      describedModifiers modifiers
  | v => v.chars

def describedArguments : List (Argument Value) → List (List Char)
  | [] => []
  | ⟨label, v⟩ :: rest => (labelChars label ++ v.described) :: describedArguments rest

/-- The text of recorded modifiers, one after the other. -/
def describedModifiers : List (Call Value) → List Char
  | [] => []
  | ⟨name, arguments⟩ :: rest =>
    '.' :: name.toList ++ '(' :: commaSeparated (describedArguments arguments) ++ ')' ::
      describedModifiers rest

end

def describedArgument (a : Argument Value) : List Char :=
  labelChars a.label ++ a.value.described

@[simp] theorem describedArguments_eq_map (arguments : List (Argument Value)) :
    describedArguments arguments = arguments.map describedArgument := by
  induction arguments with
  | nil => rfl
  | cons a rest ih => simp [describedArguments, describedArgument, ih]

def text (v : Value) : String :=
  String.ofList v.chars

/-- The text of a value that may be a view. -/
def describe (v : Value) : String :=
  String.ofList v.described

end Value

def Call.described (c : Call Value) : List Char :=
  c.name.toList ++ '(' :: commaSeparated (c.arguments.map Value.describedArgument) ++ [')']

def Chain.described (view : Chain Value) : List Char :=
  view.root.described ++ view.modifiers.flatMap fun m => '.' :: m.described

def Chain.describe (view : Chain Value) : String :=
  String.ofList view.described

theorem Value.describedModifiers_eq_flatMap (modifiers : List (Call Value)) :
    Value.describedModifiers modifiers = modifiers.flatMap fun m => '.' :: m.described := by
  induction modifiers with
  | nil => rfl
  | cons m rest ih => simp [Value.describedModifiers, Call.described, ih]

@[simp] theorem Value.described_view (identity : Nat) (view : Chain Value) :
    (Value.artifact ⟨identity, .view view⟩).described = view.described := by
  obtain ⟨⟨name, arguments⟩, modifiers⟩ := view
  simp [Value.described, Chain.described, Call.described, Value.describedModifiers_eq_flatMap]

@[simp] theorem Chain.described_push (view : Chain Value) (m : Call Value) :
    (view.push m).described = view.described ++ '.' :: m.described := by
  simp [Chain.described]

/-- An account of a function: its name and what it does. -/
def Function.account (f : Function) : String :=
  match f.body with
  | .native _ => "FunctionValue(" ++ f.name ++ ", native)"
  | .expression parameters body _ =>
    "FunctionValue(" ++ f.name ++ "(" ++ ", ".intercalate parameters ++ ") = " ++ body.text ++ ")"

def RuntimeType.memberNames {α : Type} (t : RuntimeType α) : List String :=
  t.members.keys.mergeSort (· ≤ ·)

/-- An account of a type: its name and the names of its members. -/
def RuntimeType.account {α : Type} (t : RuntimeType α) : String :=
  let names := ", ".intercalate (t.memberNames.map Text.quote)
  "RuntimeType \x7b name: " ++ Text.quote t.name ++ ", members: [" ++ names ++ "] \x7d"

end Fluent

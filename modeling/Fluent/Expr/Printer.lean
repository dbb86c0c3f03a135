import Fluent.Decimal.Notation
import Fluent.Expr
import Fluent.Text.Quoted

/-!
# The text of an expression

Arguments and items stand between commas, a label stands before a colon, and no parentheses are
written other than those of calls.
-/
namespace Fluent

/-- The texts one after the other, with a comma and a space between any two. -/
def commaSeparated (texts : List (List Char)) : List Char :=
  [',', ' '].intercalate texts

/-- The text of a label before its argument. -/
def labelChars (label : Option String) : List Char :=
  match label with
  | some l => l.toList ++ [':', ' ']
  | none => []

/-- The text of a literal. -/
def Literal.chars : Literal → List Char
  | integer n => (toString n.toInt).toList
  | double x => Decimal.doubleChars x
  | boolean b => (if b then "true" else "false").toList
  | string s => Text.quoteChars s.toList

namespace Expr

mutual

/-- The text of an expression. -/
def chars : Expr → List Char
  | literal l => l.chars
  | name n => n.toList
  | member base n => base.chars ++ '.' :: n.toList
  | implicitMember n => '.' :: n.toList
  | call callee arguments => callee.chars ++ '(' :: commaSeparated (argumentTexts arguments) ++ [')']
  | array items => '[' :: commaSeparated (itemTexts items) ++ [']']

/-- The text of every argument. -/
def argumentTexts : List (Argument Expr) → List (List Char)
  | [] => []
  | ⟨label, e⟩ :: rest => (labelChars label ++ e.chars) :: argumentTexts rest

/-- The text of every item. -/
def itemTexts : List Expr → List (List Char)
  | [] => []
  | e :: rest => e.chars :: itemTexts rest

end

/-- The text of one argument. -/
def argumentChars (a : Argument Expr) : List Char :=
  labelChars a.label ++ a.value.chars

@[simp] theorem argumentTexts_eq_map (arguments : List (Argument Expr)) :
    argumentTexts arguments = arguments.map argumentChars := by
  induction arguments with
  | nil => rfl
  | cons a rest ih => simp [argumentTexts, argumentChars, ih]

@[simp] theorem itemTexts_eq_map (items : List Expr) : itemTexts items = items.map chars := by
  induction items with
  | nil => rfl
  | cons e rest ih => simp [itemTexts, ih]

def text (e : Expr) : String :=
  String.ofList e.chars

end Expr

end Fluent

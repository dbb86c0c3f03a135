import Fluent.Reader.Lexeme

/-!
# Reading expressions

An expression is a primary followed by any number of argument lists and member names, which apply
from left to right. The alternatives of a primary are tried in a fixed order, and a suffix that
does not read to its end is left in the text.

Brackets hold expressions again. The rules take the rule for those as an argument. The text itself
bounds how deep brackets nest and how many suffixes follow one another, since each of them takes at
least one character: the bounds below are texts, of which one character is taken at a time.
-/
namespace Fluent.Reader

/-- An expression in parentheses. -/
def parenthesized (inner : Rule Expr) : Rule Expr := fun s => do
  let s ← mark '(' s
  let (e, s) ← inner s
  let s ← mark ')' s
  return (e, s)

/-- Items in square brackets. A comma may follow the last. -/
def array (inner : Rule Expr) : Rule Expr := Rule.within "array" fun s => do
  let s ← mark '[' s
  let (es, s) := items (silent inner) s
  let s := (token ',' s).getD s
  let s ← mark ']' s
  return (.array es, s)

/-- A name after a point, with nothing in between. -/
def implicitMember : Rule Expr := fun s => do
  let s ← char '.' s
  identifier.map .implicitMember s

/-- A literal, an array, a parenthesized expression, an implicit member or a name, tried in this
order. -/
def unpadded (inner : Rule Expr) : Rule Expr := Rule.within "Alt" <|
  (literal.map Expr.literal).either <| (array inner).either <| (parenthesized inner).either <|
    implicitMember.either (identifier.map .name)

/-- An expression that is no call and no member, with the blanks around it. -/
def primary (inner : Rule Expr) : Rule Expr := fun s => do
  let (e, rest) ← unpadded inner (skipBlanks s)
  return (e, skipBlanks rest)

/-- An expression after a label and a colon. -/
def labeledArgument (inner : Rule Expr) : Rule (Argument Expr) := fun s => do
  let (label, s) ← identifier (skipBlanks s)
  let s ← mark ':' s
  inner.map (⟨some label, ·⟩) s

/-- An argument, with its label if it has one. -/
def argument (inner : Rule Expr) : Rule (Argument Expr) :=
  Rule.within "Alt" <| (labeledArgument inner).either (inner.map (⟨none, ·⟩))

/-- Arguments in parentheses. -/
def argumentList (inner : Rule Expr) : Rule (List (Argument Expr)) :=
  Rule.within "arguments" fun s => do
    let s ← mark '(' s
    let (arguments, s) := items (silent (argument inner)) s
    let s ← mark ')' s
    return (arguments, s)

/-- The member of the expression that is named after a point. -/
def memberName (e : Expr) : Rule Expr := fun s => do
  let s ← mark '.' s
  identifier.map (.member e) s

/-- The expression with the argument list or the member name that follows it. -/
def suffix (inner : Rule Expr) (e : Expr) : Rule Expr :=
  ((argumentList inner).map (.call e)).either (memberName e)

/-- The expression with all suffixes that follow it, of which there are at most as many as the bound
has characters. -/
def suffixes (inner : Rule Expr) : List Char → Expr → List Char → Expr × List Char
  | [], e, s => (e, s)
  | _ :: bound, e, s =>
    match suffix inner e s with
    | .error _ => (e, s)
    | .ok (e, rest) => suffixes inner bound e rest

/-- A primary and its suffixes. -/
def postfixed (inner : Rule Expr) : Rule Expr := fun s => do
  let (e, rest) ← primary inner s
  return suffixes inner rest e rest

/-- An expression in whose brackets the other rule reads. -/
def expressionOver (inner : Rule Expr) : Rule Expr :=
  (postfixed inner).within "expression"

/-- An expression whose brackets nest less deep than the bound is long. -/
def nested : List Char → Rule Expr
  | [] => miss (.rule "expression")
  | _ :: depth => expressionOver (nested depth)

/-- An expression at the beginning of a text, which bounds how deep its brackets nest. -/
def expression : Rule Expr := fun s =>
  expressionOver (nested s) s

/-- An expression with the blanks around it. -/
def leadingExpression : Rule Expr := fun s => do
  let (e, rest) ← expression (skipBlanks s)
  return (e, skipBlanks rest)

end Fluent.Reader

import Fluent.Reader.Expression
import Fluent.Text.Space

/-!
# Whole texts and their errors

A text is read to its end. Where that fails the error says where: either what was tried in vain
first, or what is left after an expression.
-/
namespace Fluent

/-- A place in a text: the byte offsets of its ends, and the line and the column of its start,
which count from one. -/
structure Span where
  start : Nat
  stop : Nat
  line : Nat
  column : Nat
deriving DecidableEq, Repr

/-- Why a text is not an expression. Both causes show at most twenty characters of what stands
there. -/
inductive SyntaxError where
  /-- No expression is read. The detail says what was tried, and the place is that of the innermost
  attempt. -/
  | noExpression (detail : String) (found : String) (span : Span)
  /-- An expression ends before this. -/
  | trailing (found : String) (span : Span)
deriving DecidableEq, Repr

namespace Span

def byteLength (s : List Char) : Nat :=
  (String.ofList s).utf8ByteSize

/-- The characters after the last line end. -/
def lastLine (s : List Char) : List Char :=
  (s.reverse.takeWhile (· != '\n')).reverse

/-- The place after the characters read, before those left. -/
def between (read left : List Char) : Span :=
  let start := byteLength read
  { start
    stop := min (start + 1) (start + byteLength left)
    line := read.count '\n' + 1
    column := (lastLine read).length + 1 }

/-- The characters of a text before those left. -/
def before (source left : List Char) : List Char :=
  source.take (source.length - left.length)

/-- The place in a text from which these characters are left. -/
def locate (source left : List Char) : Span :=
  between (before source left) left

def text (s : Span) : String :=
  s!"line: {s.line}, column: {s.column}, start: {s.start}, end: {s.stop}"

end Span

namespace SyntaxError

def span : SyntaxError → Span
  | noExpression _ _ span => span
  | trailing _ span => span

def found : SyntaxError → String
  | noExpression _ found _ => found
  | trailing found _ => found

/-- What was tried, if no expression is read. -/
def detail? : SyntaxError → Option String
  | noExpression detail _ _ => some detail
  | trailing _ _ => none

/-- The wording of the error. -/
def message (e : SyntaxError) : String :=
  match e.detail? with
  | some detail => s!"Parse error: {detail} at position {e.span.text}"
  | none => s!"Unexpected input `{e.found}` at position {e.span.text}"

/-- How many characters of the text an error shows. -/
def shown : Nat := 20

/-- The line of the text on which these characters are left, and a caret below the first of them.
The caret is set in by bytes, not by characters. -/
def pointer (source left : List Char) : String :=
  let start := Span.lastLine (Span.before source left)
  let line := Text.trimEnd (start ++ left.takeWhile (· != '\n'))
  let caret := List.replicate (Span.byteLength start) ' ' ++ ['^']
  s!"{String.ofList line}\n{String.ofList caret}"

/-- What is said about one attempt: its number, what was tried, and where. -/
def attemptText (source : List Char) (number : Nat) (attempt : Reader.Attempt) : String :=
  let left := attempt.left
  let line := (Span.locate source left).line
  match source, attempt.goal with
  | [], .char c => s!"{number}: expected '{c}', got empty input\n\n"
  | [], .rule name => s!"{number}: in {name}, got empty input\n\n"
  | _, .char c =>
    let met := match left with
      | d :: _ => s!"found {d}"
      | [] => "got end of input"
    s!"{number}: at line {line}:\n{pointer source left}\nexpected '{c}', {met}\n\n"
  | _, .rule name => s!"{number}: at line {line}, in {name}:\n{pointer source left}\n\n"

/-- The error for a text in which all this was tried in vain. It points where the first attempt was
made. -/
def ofTrace (source : List Char) (trace : Reader.Trace) : SyntaxError :=
  let left := (trace.head?.map Reader.Attempt.left).getD source
  noExpression (String.join (trace.mapIdx (attemptText source))) (String.ofList (left.take shown))
    (Span.locate source left)

/-- The error for a text of which this is left after an expression. -/
def afterExpression (source left : List Char) : SyntaxError :=
  trailing (String.ofList (left.take shown)) (Span.locate source left)

end SyntaxError

namespace Expr

/-- The expression that a rule has read, if nothing of the text is left. -/
def whole (source : List Char) :
    Except Reader.Trace (Expr × List Char) → Except SyntaxError Expr
  | .ok (e, []) => .ok e
  | .ok (_, rest) => .error (.afterExpression source rest)
  | .error trace => .error (.ofTrace source trace)

/-- Reads a text that is an expression from its first to its last character, blanks at both ends
aside. -/
def parseChars (s : List Char) : Except SyntaxError Expr :=
  whole s (Reader.leadingExpression s)

/-- Reads a whole text as an expression. -/
def parse (s : String) : Except SyntaxError Expr :=
  parseChars s.toList

theorem parse_eq_parseChars (s : String) : parse s = parseChars s.toList := rfl

-- Where the text is not known there is nothing to be found by unfolding the rules.
attribute [irreducible] parse

end Expr

end Fluent

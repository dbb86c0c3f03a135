import Fluent.Decimal.Reading
import Fluent.Expr
import Fluent.Reader.Rule
import Fluent.Text.Numeric

/-!
# Names and literals

The rules for the tokens that carry content. A name is a letter or an underscore followed by
letters, digits and underscores, and neither `true` nor `false`. A literal is a double, an integer,
a quoted text or one of those two words, tried in this order.
-/
namespace Fluent.Reader

/-- A character that may begin a name. -/
def beginsName (c : Char) : Bool :=
  Text.isAlphabetic c || c = '_'

/-- A character that may stand inside a name. -/
def continuesName (c : Char) : Bool :=
  Text.isAlphanumeric c || c = '_'

/-- The words that are literals and therefore no names. -/
def reserved : List String :=
  ["true", "false"]

/-- The longest run of name characters, which is not empty. -/
def run : Rule String
  | [] => miss (.rule "TakeWhile1") []
  | c :: s =>
    if beginsName c then
      .ok (String.ofList (c :: s.takeWhile continuesName), s.dropWhile continuesName)
    else miss (.rule "TakeWhile1") (c :: s)

/-- The longest run of name characters, unless it is a reserved word. -/
def identifier : Rule String := fun s => do
  let (name, rest) ← run.within "identifier" s
  if reserved.contains name then miss (.rule "reserved word") s else return (name, rest)

/-- One of the two truth values, written as a whole word. -/
def truth (name : String) (value : Bool) : Rule Bool := fun s =>
  match word name.toList s with
  | some rest =>
    if rest.head?.any continuesName then miss (.rule "Not") rest else .ok (value, rest)
  | none => miss (.rule "Tag") s

/-- The digits at the beginning of the text, of which there is one at least. -/
def digits : Rule (List Char) := fun s =>
  let run := s.takeWhile Char.isDigit
  if run.isEmpty then miss (.rule "Digit") s else .ok (run, s.dropWhile Char.isDigit)

/-- Digits, a point and digits, with an optional minus sign. -/
def double : Rule Float := fun s => do
  let (negative, s) := Decimal.splitSign s
  let (whole, s) ← digits s
  let s ← char '.' s
  let (fraction, s) ← digits s
  return (Decimal.fixedPoint negative whole fraction, s)

/-- The word for an integer, if it fits into 64 bits with a sign. -/
def int64? (n : Int) : Option Int64 :=
  if Int64.minValue.toInt ≤ n ∧ n ≤ Int64.maxValue.toInt then some (Int64.ofInt n) else none

/-- Digits with an optional minus sign, whose value fits into 64 bits. -/
def integer : Rule Int64 := fun s => do
  let (negative, rest) := Decimal.splitSign s
  let (run, rest) ← digits rest
  let magnitude : Int := Decimal.digitsValue run
  match int64? (if negative then -magnitude else magnitude) with
  | some n => return (n, rest)
  | none => miss (.rule "MapRes") s

/-- The character that an escape stands for. -/
def unescape? (c : Char) : Option Char :=
  if c = '\\' then some '\\'
  else if c = '"' then some '"'
  else if c = 'n' then some '\n'
  else if c = 't' then some '\t'
  else none

/-- The characters up to the next quote that is not escaped, or to the end of the text. -/
def content : Silent (List Char)
  | [] => some ([], [])
  | '"' :: s => some ([], '"' :: s)
  | ['\\'] => none
  | '\\' :: c :: s => do
    let d ← unescape? c
    let (content, rest) ← content s
    return (d :: content, rest)
  | c :: s => do
    let (content, rest) ← content s
    return (c :: content, rest)

/-- A text between quotes. One with an escape that is not known has no content, so that a quote is
missed at its beginning. -/
def quoted : Rule String := Rule.within "string literal" fun s => do
  let s ← char '"' s
  let (content, s) := (content s).getD ([], s)
  let s ← char '"' s
  return (String.ofList content, s)

/-- A literal. A double is tried before an integer, which would stop at the point. -/
def literal : Rule Literal := Rule.within "literal" <| Rule.within "Alt" <|
  (double.map .double).either <| (integer.map .integer).either <| (quoted.map .string).either <|
    ((truth "true" true).map .boolean).either ((truth "false" false).map .boolean)

end Fluent.Reader

import Fluent.Reader.Silent

/-!
# JSON values

Rules for the values of JSON. Texts are read to their content; any other value is only passed
over, so that numbers may be of any size.
-/
namespace Fluent.Json

open Fluent.Reader

/-- The value of one digit in base sixteen. -/
def hexValue? (c : Char) : Option Nat :=
  if c.isDigit then some (c.toNat - '0'.toNat)
  else if 'a' ≤ c ∧ c ≤ 'f' then some (c.toNat - 'a'.toNat + 10)
  else if 'A' ≤ c ∧ c ≤ 'F' then some (c.toNat - 'A'.toNat + 10)
  else none

/-- Four digits in base sixteen: one unit of UTF-16. -/
def hexUnit : Silent Nat
  | a :: b :: c :: d :: s => do
    let a ← hexValue? a
    let b ← hexValue? b
    let c ← hexValue? c
    let d ← hexValue? d
    return (((a * 16 + b) * 16 + c) * 16 + d, s)
  | _ => none

/-- A unit that needs a second one after it. -/
def isLeading (unit : Nat) : Bool :=
  0xD800 ≤ unit && unit < 0xDC00

/-- A unit that stands only after a leading one. -/
def isTrailing (unit : Nat) : Bool :=
  0xDC00 ≤ unit && unit < 0xE000

/-- The character that one unit or a pair of units encodes, after the first `\u`. -/
def unicodeEscape : Silent Char := fun s => do
  let (unit, s) ← hexUnit s
  if isLeading unit then
    match s with
    | '\\' :: 'u' :: s => do
      let (second, s) ← hexUnit s
      if isTrailing second then
        return (Char.ofNat (0x10000 + (unit - 0xD800) * 0x400 + (second - 0xDC00)), s)
      else none
    | _ => none
  else if isTrailing unit then none
  else return (Char.ofNat unit, s)

/-- The character that a one-letter escape stands for. -/
def shortEscape? (c : Char) : Option Char :=
  if c = '"' ∨ c = '\\' ∨ c = '/' then some c
  else if c = 'b' then some '\x08'
  else if c = 'f' then some '\x0c'
  else if c = 'n' then some '\n'
  else if c = 'r' then some '\r'
  else if c = 't' then some '\t'
  else none

/-- The content of a text up to its closing quote, which is read too. The content has at most as
many characters as the first text. -/
def textRest : List Char → Silent (List Char)
  | [], _ => none
  | _ :: _, [] => none
  | _ :: _, '"' :: s => some ([], s)
  | _ :: bound, '\\' :: 'u' :: s => do
    let (c, s) ← unicodeEscape s
    let (content, s) ← textRest bound s
    return (c :: content, s)
  | _ :: bound, '\\' :: c :: s => do
    let c ← shortEscape? c
    let (content, s) ← textRest bound s
    return (c :: content, s)
  | _ :: bound, c :: s => do
    if c = '\\' ∨ c.toNat < 0x20 then none
    else
      let (content, s) ← textRest bound s
      return (c :: content, s)

/-- A text in quotes. -/
def text : Silent String := fun s =>
  match skipBlanks s with
  | '"' :: s => (textRest s s).map fun (content, rest) => (String.ofList content, rest)
  | _ => none

/-- Passes over a text up to its closing quote. Escaped units need not encode a character. The
content has at most as many characters as the first text. -/
def skipTextRest : List Char → List Char → Option (List Char)
  | [], _ => none
  | _ :: _, [] => none
  | _ :: _, '"' :: s => some s
  | _ :: bound, '\\' :: 'u' :: s => do
    let (_, s) ← hexUnit s
    skipTextRest bound s
  | _ :: bound, '\\' :: c :: s => do
    let _ ← shortEscape? c
    skipTextRest bound s
  | _ :: bound, c :: s => if c = '\\' ∨ c.toNat < 0x20 then none else skipTextRest bound s

/-- Passes over a text in quotes. -/
def skipText (s : List Char) : Option (List Char) :=
  match skipBlanks s with
  | '"' :: s => skipTextRest s s
  | _ => none

/-- Passes over one digit and those that follow it. -/
def skipDigits (s : List Char) : Option (List Char) :=
  if (s.takeWhile Char.isDigit).isEmpty then none else some (s.dropWhile Char.isDigit)

/-- Passes over the digits of a whole number, which start with a zero only if they are one. -/
def skipWhole : List Char → Option (List Char)
  | '0' :: s => if (s.takeWhile Char.isDigit).isEmpty then some s else none
  | s => skipDigits s

/-- Passes over the fraction of a number, if there is one. -/
def skipFraction : List Char → Option (List Char)
  | '.' :: s => skipDigits s
  | s => some s

/-- Passes over the exponent of a number, if there is one. -/
def skipExponent : List Char → Option (List Char)
  | c :: s =>
    if c = 'e' ∨ c = 'E' then
      match s with
      | sign :: rest => if sign = '+' ∨ sign = '-' then skipDigits rest else skipDigits s
      | [] => none
    else some (c :: s)
  | [] => some []

/-- Passes over a number. -/
def skipNumber (s : List Char) : Option (List Char) := do
  let s := match s with
    | '-' :: rest => rest
    | _ => s
  skipExponent (← skipFraction (← skipWhole s))

/-- Passes over one item of an array. -/
def skipItem (inner : List Char → Option (List Char)) : Silent Unit := fun s =>
  (inner s).map ((), ·)

/-- Passes over one key of an object and its value. -/
def skipMember (inner : List Char → Option (List Char)) : Silent Unit := fun s => do
  let s ← skipText s
  let s ← token ':' s
  skipItem inner s

/-- Passes over a value whose inner values the argument passes over. -/
def skipWith (inner : List Char → Option (List Char)) (s : List Char) : Option (List Char) :=
  match skipBlanks s with
  | '"' :: s => skipTextRest s s
  | '[' :: s => token ']' (items (skipItem inner) s).2
  | '\x7b' :: s => token '\x7d' (items (skipMember inner) s).2
  | s =>
    word "null".toList s <|> word "true".toList s <|> word "false".toList s <|> skipNumber s

/-- Passes over a value whose brackets nest less deep than the bound is long. -/
def skipNested : List Char → List Char → Option (List Char)
  | [], _ => none
  | _ :: depth, s => skipWith (skipNested depth) s

/-- Passes over a value. Every level of nesting takes a bracket. -/
def skipValue (s : List Char) : Option (List Char) :=
  skipNested s s

end Fluent.Json

/-!
# Reading doubles

A decimal text names a rational number, and reads as the double nearest to it.
-/
namespace Fluent.Decimal

/-- The number that a run of decimal digits names. -/
def digitsValue (digits : List Char) : Nat :=
  digits.foldl (fun n c => 10 * n + (c.toNat - '0'.toNat)) 0

/-- The double nearest to `digits * 10 ^ exponent`, with the sign. -/
def nearestDouble (negative : Bool) (digits : Nat) (exponent : Int) : Float :=
  let magnitude :=
    if 0 ≤ exponent then Float.ofScientific digits false exponent.toNat
    else Float.ofScientific digits true (-exponent).toNat
  if negative then -magnitude else magnitude

/-- The double that `whole.fraction` names. -/
def fixedPoint (negative : Bool) (whole fraction : List Char) : Float :=
  nearestDouble negative (digitsValue (whole ++ fraction)) (-fraction.length)

/-- The text without a minus sign in front, and whether there was one. -/
def splitSign : List Char → Bool × List Char
  | '-' :: rest => (true, rest)
  | s => (false, s)

/-- The text without a sign in front, and whether that is a minus sign. -/
def splitEitherSign : List Char → Bool × List Char
  | '+' :: rest => (false, rest)
  | s => splitSign s

/-- Reads a whole text as an integer: an optional sign and at least one digit. -/
def readInteger? (s : List Char) : Option Int :=
  let (negative, digits) := splitEitherSign s
  if digits.isEmpty || !digits.all Char.isDigit then none
  else some (if negative then -(digitsValue digits : Int) else digitsValue digits)

/-- Reads a number without a sign: digits with an optional fraction and exponent. Digits may miss
on one side of the point, but not on both. -/
def readMagnitude? (negative : Bool) (s : List Char) : Option Float :=
  let whole := s.takeWhile Char.isDigit
  let rest := s.dropWhile Char.isDigit
  let (fraction, rest) := match rest with
    | '.' :: tail => (tail.takeWhile Char.isDigit, tail.dropWhile Char.isDigit)
    | _ => ([], rest)
  let exponent? := match rest with
    | [] => some 0
    | c :: tail => if c.toLower = 'e' then readInteger? tail else none
  if whole.isEmpty && fraction.isEmpty then none
  else exponent?.map fun exponent =>
    nearestDouble negative (digitsValue (whole ++ fraction)) (exponent - fraction.length)

/-- Reads a whole text as a double: an optional sign and a number, or, in letters of either case,
the name of the infinity or of not-a-number. -/
def readDouble? (s : List Char) : Option Float :=
  let (negative, rest) := splitEitherSign s
  let name := String.ofList (rest.map Char.toLower)
  if name = "inf" || name = "infinity" then some (if negative then -1.0 / 0.0 else 1.0 / 0.0)
  else if name = "nan" then some (0.0 / 0.0)
  else readMagnitude? negative rest

end Fluent.Decimal

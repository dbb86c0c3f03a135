import Fluent.Decimal.Shortest

/-!
# How doubles are written

A double is written by its shortest decimal: positionally, and always with a fraction, from
`0.0001` up to below `10 ^ 16`, and otherwise with one digit before the point and an exponent.
-/
namespace Fluent.Decimal

/-- The digits with a point after the first `k` of them, filled up with zeros where the digits do
not reach the point, and with at least one digit on either side of it. -/
def positional (digits : List Char) (k : Int) : List Char :=
  if k ≤ 0 then ['0', '.'] ++ List.replicate (-k).toNat '0' ++ digits
  else if digits.length ≤ k.toNat then
    digits ++ List.replicate (k.toNat - digits.length) '0' ++ ['.', '0']
  else digits.take k.toNat ++ ['.'] ++ digits.drop k.toNat

/-- The digits with a point after the first, if more follow, and the exponent of that first
digit. -/
def scientific (digits : List Char) (exponent : Int) : List Char :=
  let mantissa := match digits with
    | [] => []
    | [digit] => [digit]
    | digit :: rest => digit :: '.' :: rest
  mantissa ++ ['e'] ++ (toString exponent).toList

/-- The text of a positive decimal. -/
def text (d : Decimal) : List Char :=
  let digits := Nat.toDigits 10 d.coefficient
  let k := digits.length + d.exponent
  if -4 < k ∧ k ≤ 16 then positional digits k else scientific digits (k - 1)

/-- The text of the double with these bits, without its sign. -/
def magnitudeText (bits : Nat) : List Char :=
  if bits = 0 then ['0', '.', '0'] else (shortest bits).text

/-- The text of a double. Not-a-number has no sign. -/
def doubleChars (x : Float) : List Char :=
  let bits := x.toBits.toNat
  let magnitude := bits % (1 <<< 63)
  let sign := if bits < 1 <<< 63 then [] else ['-']
  if 0x7FF0000000000000 < magnitude then ['N', 'a', 'N']
  else if magnitude = 0x7FF0000000000000 then sign ++ ['i', 'n', 'f']
  else sign ++ magnitudeText magnitude

/-- The text of a double. -/
def doubleText (x : Float) : String :=
  String.ofList (doubleChars x)

example : doubleText 0.1 = "0.1" := by decide +kernel

-- where positional notation ends
example : doubleText 1e15 = "1000000000000000.0" ∧ doubleText 1e16 = "1e16" := by decide +kernel

example : doubleText 1e-4 = "0.0001" ∧ doubleText 1.5e-5 = "1.5e-5" := by decide +kernel

-- of two equally near decimals the larger
example : doubleText 2.98023223876953125e-8 = "2.9802322387695313e-8" := by decide +kernel

end Fluent.Decimal

import Fluent.Text.Ranges

/-!
# White space at the ends of a text

The characters of the Unicode property `White_Space`, and the trimming of a text by them.
-/
namespace Fluent.Text

/-- The white-space code points above ASCII. -/
def spaceRanges : List (Nat × Nat) :=
  [(0x85, 0x85), (0xA0, 0xA0), (0x1680, 0x1680), (0x2000, 0x200A), (0x2028, 0x2029),
   (0x202F, 0x202F), (0x205F, 0x205F), (0x3000, 0x3000)]

/-- White space of any script: the plain space, tabs, line ends and the wide spaces. -/
def isSpace (c : Char) : Bool :=
  if c.toNat < 0x80 then c.toNat == 0x20 || (0x09 ≤ c.toNat && c.toNat ≤ 0x0D)
  else inRanges spaceRanges c.toNat

/-- The text without the white space at its end. -/
def trimEnd (s : List Char) : List Char :=
  (s.reverse.dropWhile isSpace).reverse

/-- The text without the white space at either end. -/
def trim (s : List Char) : List Char :=
  trimEnd (s.dropWhile isSpace)

end Fluent.Text

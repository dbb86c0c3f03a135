import Fluent.Text.Printable

/-!
# Quoted text

A text is shown between double quotes. The quote, the backslash, the line end, the carriage
return, the tab and the zero character have short escapes; a character that shows nothing, and a
mark that would join its neighbour, is shown by its code point; every other character stands for
itself.
-/
namespace Fluent.Text

/-- The digits of a number in base sixteen, in lower case. -/
def hexDigits (n : Nat) : List Char :=
  Nat.toDigits 16 n

/-- How one character is written between quotes. -/
def escape (c : Char) : List Char :=
  if c = '"' then ['\\', '"']
  else if c = '\\' then ['\\', '\\']
  else if c = '\n' then ['\\', 'n']
  else if c = '\r' then ['\\', 'r']
  else if c = '\t' then ['\\', 't']
  else if c.toNat = 0 then ['\\', '0']
  else if isExtending c || !isPrintable c then
    ['\\', 'u', '\x7b'] ++ hexDigits c.toNat ++ ['\x7d']
  else [c]

/-- The text between quotes. -/
def quoteChars (s : List Char) : List Char :=
  '"' :: (s.flatMap escape ++ ['"'])

def quote (s : String) : String :=
  String.ofList (quoteChars s.toList)

@[simp] theorem toList_quote (s : String) : (quote s).toList = quoteChars s.toList := by
  simp [quote]

end Fluent.Text

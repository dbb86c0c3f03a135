/-!
# Silent rules

A rule reads the beginning of a text. It either fails or answers what it read together with the
text that is left. A silent one does not say why it fails, which is enough where reading goes on
then: a list ends before whatever is no item. Between two tokens a text may hold blanks.
-/
namespace Fluent.Reader

/-- Reads the beginning of a text: what was read and what is left. -/
abbrev Silent (α : Type) := List Char → Option (α × List Char)

/-- A character that may stand between two tokens. -/
def isBlank (c : Char) : Bool :=
  c = ' ' || c = '\t' || c = '\r' || c = '\n'

/-- The text without the blanks in front. -/
def skipBlanks (s : List Char) : List Char :=
  s.dropWhile isBlank

/-- Reads one character, and the blanks before and after it. -/
def token (c : Char) (s : List Char) : Option (List Char) :=
  match skipBlanks s with
  | [] => none
  | d :: rest => if d = c then some (skipBlanks rest) else none

/-- Reads a word that stands at the very beginning of the text. -/
def word : List Char → List Char → Option (List Char)
  | [], s => some s
  | _ :: _, [] => none
  | c :: w, d :: s => if d = c then word w s else none

section

variable {α : Type}

/-- Further items, each after a comma. A comma that no item follows is not read. There are at most
as many items as the first text has characters. -/
def moreItems (item : Silent α) : List Char → List Char → List α × List Char
  | [], s => ([], s)
  | _ :: bound, s =>
    match (token ',' s).bind item with
    | none => ([], s)
    | some (x, rest) =>
      let more := moreItems item bound rest
      (x :: more.1, more.2)

/-- Items between commas, or none. Every item takes at least one character, so the text bounds
their number. -/
def items (item : Silent α) (s : List Char) : List α × List Char :=
  match item s with
  | none => ([], s)
  | some (x, rest) =>
    let more := moreItems item rest rest
    (x :: more.1, more.2)

end

theorem takeWhile_append_skipBlanks (s : List Char) :
    s.takeWhile isBlank ++ skipBlanks s = s :=
  List.takeWhile_append_dropWhile

@[simp] theorem skipBlanks_nil : skipBlanks [] = [] := rfl

theorem skipBlanks_cons_of_not_isBlank (c : Char) (s : List Char) (h : isBlank c = false) :
    skipBlanks (c :: s) = c :: s := by
  simp [skipBlanks, h]

@[simp] theorem skipBlanks_skipBlanks (s : List Char) :
    skipBlanks (skipBlanks s) = skipBlanks s := by
  induction s with
  | nil => rfl
  | cons c s ih =>
    by_cases h : isBlank c = true
    · simp only [skipBlanks, List.dropWhile_cons_of_pos h] at ih ⊢
      exact ih
    · simp [skipBlanks, h]

/-- A word is read exactly where it stands. -/
theorem word_eq_some_iff (w s rest : List Char) : word w s = some rest ↔ s = w ++ rest := by
  induction w generalizing s with
  | nil => simp [word]
  | cons c w ih =>
    cases s with
    | nil => simp [word]
    | cons d s =>
      by_cases h : d = c
      · simp [word, h, ih]
      · simp [word, h]

end Fluent.Reader

import Fluent.Expr.Printer
import Fluent.Proofs.Reader.Completeness

/-!
# What is printed reads back

The printer writes no parentheses around an expression, yet its text is a written form of the
expression alone: a printed name, number or text ends where the point, the comma or the bracket
after it begins. It is enough that the leaves are written in a way that is read.

Main statement: `Expr.parse_text`.
-/
namespace Fluent

open Grammar

/-- The literal is printed in a way that is read: a text without escapes other than those of the
grammar, and a double positionally and without loss. -/
inductive Literal.Legible : Literal → Prop
  | integer (n : Int64) : Legible (.integer n)
  | double {x : Float} (negative : Bool) {whole fraction : List Char} (hw : Digits whole)
      (hf : Digits fraction)
      (printed : Decimal.doubleChars x = signed negative (whole ++ '.' :: fraction))
      (exact : Decimal.fixedPoint negative whole fraction = x) : Legible (.double x)
  | boolean (b : Bool) : Legible (.boolean b)
  | string {s : String}
      (plain : ∀ c ∈ s.toList, Text.escape c = [c] ∨ c ∈ ['"', '\\', '\n', '\t']) :
      Legible (.string s)

/-- Every name in the expression is one, and every literal is printed in a way that is read. -/
inductive Expr.Legible : Expr → Prop
  | literal {l : Literal} (legible : l.Legible) : Legible (.literal l)
  | name {n : String} (isName : IsName n) : Legible (.name n)
  | member {base : Expr} {n : String} (legible : Legible base) (isName : IsName n) :
      Legible (.member base n)
  | implicitMember {n : String} (isName : IsName n) : Legible (.implicitMember n)
  | call {callee : Expr} {arguments : List (Argument Expr)} (called : Legible callee)
      (labels : ∀ a ∈ arguments, ∀ label ∈ a.label, IsName label)
      (values : ∀ a ∈ arguments, Legible a.value) : Legible (.call callee arguments)
  | array {items : List Expr} (legible : ∀ e ∈ items, Legible e) : Legible (.array items)

namespace Grammar

/-! ## Literals -/

theorem digits_toDigits (n : Nat) : Digits (Nat.toDigits 10 n) :=
  ⟨Nat.toDigits_ne_nil, fun _ hc => Nat.isDigit_of_mem_toDigits (by decide) (by decide) hc⟩

theorem digitsValue_toDigits (n : Nat) : Decimal.digitsValue (Nat.toDigits 10 n) = n := by
  have value : Nat.ofDigitChars 10 (Nat.toDigits 10 n) 0 = n := Nat.ofDigitChars_ten_toDigits
  rwa [Nat.ofDigitChars_eq_foldl] at value

/-- A whole number is printed with its sign and its digits. -/
theorem literalText_integer (n : Int64) : LiteralText (toString n.toInt).toList (.integer n) := by
  cases value : n.toInt with
  | ofNat m =>
    have printed : (toString (Int.ofNat m)).toList = signed false (Nat.toDigits 10 m) := by
      change (Nat.repr m).toList = _
      rw [Nat.toList_repr]
      rfl
    rw [printed]
    exact .integer false (digits_toDigits m) (by rw [value, digitsValue_toDigits]; rfl)
  | negSucc m =>
    have printed : (toString (Int.negSucc m)).toList = signed true (Nat.toDigits 10 (m + 1)) := by
      change ("-" ++ Nat.repr (m + 1)).toList = _
      rw [String.toList_append, Nat.toList_repr]
      rfl
    rw [printed]
    exact .integer true (digits_toDigits (m + 1)) (by rw [value, digitsValue_toDigits]; rfl)

/-- A text is quoted with the escapes of the grammar. -/
theorem quoted_flatMap_escape {s : List Char}
    (h : ∀ c ∈ s, Text.escape c = [c] ∨ c ∈ ['"', '\\', '\n', '\t']) :
    Quoted (s.flatMap Text.escape) s := by
  induction s with
  | nil => exact .nil
  | cons c s ih =>
    have rest := ih fun d hd => h d (List.mem_cons_of_mem c hd)
    rw [List.flatMap_cons]
    by_cases special : c ∈ ['"', '\\', '\n', '\t']
    · simp only [List.mem_cons, List.not_mem_nil, or_false] at special
      obtain rfl | rfl | rfl | rfl := special
      · exact .escaped (by simp [escapes]) rest
      · exact .escaped (by simp [escapes]) rest
      · exact .escaped (by simp [escapes]) rest
      · exact .escaped (by simp [escapes]) rest
    · have alone := (h c List.mem_cons_self).resolve_right special
      simp only [List.mem_cons, List.not_mem_nil, or_false, not_or] at special
      rw [alone]
      exact .plain special.1 special.2.1 rest

theorem literalText_chars {l : Literal} (h : l.Legible) : LiteralText l.chars l := by
  cases h with
  | integer n => exact literalText_integer n
  | double negative hw hf printed exact =>
    rw [Literal.chars, printed, ← exact]
    exact .double negative hw hf
  | boolean b => exact .boolean b
  | @string s plain =>
    have written := LiteralText.string (quoted_flatMap_escape plain)
    rwa [String.ofList_toList] at written

/-! ## Expressions -/

/-- Texts with commas and spaces between them are separated phrases. -/
theorem separated_commaSeparated {α : Type} {phrase : List Char → α → Prop}
    (written : α → List Char) {xs : List α} (h : ∀ x ∈ xs, phrase (written x) x) :
    Separated phrase (commaSeparated (xs.map written)) xs := by
  induction xs with
  | nil => exact .nil
  | cons x xs ih =>
    have rest := ih fun y hy => h y (List.mem_cons_of_mem x hy)
    have first := h x List.mem_cons_self
    cases xs with
    | nil => simpa [commaSeparated] using Separated.one first
    | cons y ys =>
      have comma : Token [','] [',', ' '] := ⟨[], [' '], blanks_nil, by simp [Blanks], rfl⟩
      simpa [commaSeparated] using Separated.more first comma rest

theorem argumentText_argumentChars {a : Argument Expr} (label : ∀ label ∈ a.label, IsName label)
    (value : ExprText a.value.chars a.value) : ArgumentText (Expr.argumentChars a) a := by
  obtain ⟨label?, e⟩ := a
  cases label? with
  | none => exact .positional value
  | some l =>
    have colon : Token [':'] [':', ' '] := ⟨[], [' '], blanks_nil, by simp [Blanks], rfl⟩
    exact .labeled (label l rfl) (token_self l.toList) colon value

/-- By induction on the expression: the printer writes the phrases of the grammar. -/
theorem exprText_chars {e : Expr} (h : e.Legible) : ExprText e.chars e := by
  induction h with
  | literal legible => exact .primary (.literal (literalText_chars legible) (token_self _))
  | name isName => exact .primary (.name isName (token_self _))
  | member _ isName ih =>
    have written := ExprText.member ih (token_self ['.']) isName (token_self _)
    simpa only [Expr.chars, List.append_assoc, List.singleton_append] using written
  | implicitMember isName => exact .primary (.implicitMember isName (token_self _))
  | call _ labels _ ihCallee ih =>
    have written := ExprText.call ihCallee (token_self ['(']) (separated_commaSeparated
      Expr.argumentChars fun a ha => argumentText_argumentChars (labels a ha) (ih a ha))
      (token_self [')'])
    simpa only [Expr.chars, Expr.argumentTexts_eq_map, List.append_assoc, List.singleton_append,
      List.cons_append, List.nil_append] using written
  | array _ ih =>
    have written := PrimaryText.array (token_self ['[']) (separated_commaSeparated Expr.chars ih)
      (.inl rfl) (token_self [']'])
    simpa only [Expr.chars, Expr.itemTexts_eq_map, List.append_assoc, List.singleton_append,
      List.cons_append, List.nil_append] using ExprText.primary written

end Grammar

namespace Expr

/-- Printing and reading again changes nothing. -/
theorem parse_text (e : Expr) (h : e.Legible) : parse e.text = .ok e := by
  apply parse_of_exprText
  rw [text, String.toList_ofList]
  exact exprText_chars h

/-- A number called with a quote, a labeled implicit member and a double, and a member of what that
answers. -/
theorem parse_text_called_number :
    let e : Expr := .member (.call (.literal (.integer (-1)))
      [⟨none, .literal (.string "\"")⟩, ⟨some "x", .implicitMember "x"⟩,
        ⟨none, .literal (.double (-0.5))⟩]) "x"
    e.Legible ∧ parse e.text = .ok e := by
  intro e
  have isName : IsName "x" := ⟨⟨'x', [], rfl, .inl (by decide), by simp⟩, by decide, by decide⟩
  have half : Literal.Legible (.double (-0.5)) :=
    @Literal.Legible.double (-0.5) true ['0'] ['5'] (by simp [Digits]) (by simp [Digits])
      (by decide +kernel) rfl
  have legible : e.Legible := by
    refine .member (.call (.literal (.integer _)) ?labels ?values) isName
    case labels =>
      simp only [List.mem_cons, List.not_mem_nil, or_false]
      rintro a (rfl | rfl | rfl) label hl <;> cases hl
      exact isName
    case values =>
      simp only [List.mem_cons, List.not_mem_nil, or_false]
      rintro a (rfl | rfl | rfl)
      · exact .literal (.string (by simp))
      · exact .implicitMember isName
      · exact .literal half
  exact ⟨legible, parse_text e legible⟩

end Expr

end Fluent

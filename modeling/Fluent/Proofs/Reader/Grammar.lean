import Fluent.Decimal.Reading
import Fluent.Expr
import Fluent.Text.Numeric

/-!
# The grammar of expressions

Which texts are written forms of which expressions. The grammar says nothing of how a text is read:
alternatives have no order, and where a phrase ends is left open.

    expression = primary | expression arguments | expression "." name
    arguments  = "(" [argument {"," argument}] ")"
    argument   = [name ":"] expression
    primary    = literal | "[" [expression {"," expression}] [","] "]"
               | "(" expression ")" | "."name | name

Blanks may stand around every token, and the point of an implicit member is one token with its name.

Main statements: `ExprText.induction`, induction along a written form with the hypothesis for every
item of a list; `ExprText.pad`, more blanks at the ends make no difference.
-/
namespace Fluent.Grammar

/-- Blanks and nothing else. -/
def Blanks (s : List Char) : Prop :=
  ∀ c ∈ s, c ∈ [' ', '\t', '\r', '\n']

/-- A token with the blanks around it. -/
def Token (token s : List Char) : Prop :=
  ∃ before after, Blanks before ∧ Blanks after ∧ s = before ++ token ++ after

/-- A letter or an underscore, followed by letters, digits and underscores, that is no truth
value. -/
def IsName (name : String) : Prop :=
  (∃ c s, name.toList = c :: s ∧ (Text.isAlphabetic c = true ∨ c = '_') ∧
    ∀ d ∈ s, Text.isAlphanumeric d = true ∨ d = '_') ∧
  name ≠ "true" ∧ name ≠ "false"

/-- At least one decimal digit. -/
def Digits (s : List Char) : Prop :=
  s ≠ [] ∧ ∀ c ∈ s, c.isDigit = true

/-- The text with a minus sign in front, or without one. -/
def signed (negative : Bool) (s : List Char) : List Char :=
  if negative then '-' :: s else s

/-- The characters with an escape, each after the character that stands for it there. -/
def escapes : List (Char × Char) :=
  [('\\', '\\'), ('"', '"'), ('n', '\n'), ('t', '\t')]

/-- The content of a quoted text, given how it is written. -/
inductive Quoted : List Char → List Char → Prop
  | nil : Quoted [] []
  | plain {c : Char} {s content : List Char} (quote : c ≠ '"') (backslash : c ≠ '\\')
      (rest : Quoted s content) : Quoted (c :: s) (c :: content)
  | escaped {e c : Char} {s content : List Char} (escape : (e, c) ∈ escapes)
      (rest : Quoted s content) : Quoted ('\\' :: e :: s) (c :: content)

/-- The literal, given how it is written. An integer is one only if it fits into 64 bits. -/
inductive LiteralText : List Char → Literal → Prop
  | double (negative : Bool) {whole fraction : List Char} (hw : Digits whole)
      (hf : Digits fraction) :
      LiteralText (signed negative (whole ++ '.' :: fraction))
        (.double (Decimal.fixedPoint negative whole fraction))
  | integer (negative : Bool) {digits : List Char} (hd : Digits digits) {n : Int64}
      (value : n.toInt =
        if negative then -(Decimal.digitsValue digits : Int) else Decimal.digitsValue digits) :
      LiteralText (signed negative digits) (.integer n)
  | string {s content : List Char} (quoted : Quoted s content) :
      LiteralText ('"' :: (s ++ ['"'])) (.string (String.ofList content))
  | boolean (value : Bool) :
      LiteralText (if value then "true" else "false").toList (.boolean value)

/-- Any number of phrases with commas between them. -/
inductive Separated {α : Type} (phrase : List Char → α → Prop) : List Char → List α → Prop
  | nil : Separated phrase [] []
  | one {s : List Char} {x : α} (first : phrase s x) : Separated phrase s [x]
  | more {s t u : List Char} {x y : α} {xs : List α} (first : phrase s x) (comma : Token [','] t)
      (rest : Separated phrase u (y :: xs)) : Separated phrase (s ++ t ++ u) (x :: y :: xs)

/-- The same phrases are separated if they are phrases of another kind. -/
theorem Separated.mono {α : Type} {phrase other : List Char → α → Prop}
    (weaken : ∀ s x, phrase s x → other s x) {s : List Char} {xs : List α}
    (h : Separated phrase s xs) : Separated other s xs := by
  induction h with
  | nil => exact .nil
  | one first => exact .one (weaken _ _ first)
  | more first comma _ ih => exact .more (weaken _ _ first) comma ih

mutual

/-- The expression without suffixes, given how it is written. -/
inductive PrimaryText : List Char → Expr → Prop
  | literal {s t : List Char} {l : Literal} (written : LiteralText t l) (token : Token t s) :
      PrimaryText s (.literal l)
  | array {s t u v : List Char} {items : List Expr} (bracket : Token ['['] s)
      (separated : Separated ExprText t items) (comma : u = [] ∨ Token [','] u)
      (close : Token [']'] v) : PrimaryText (s ++ t ++ u ++ v) (.array items)
  | parenthesized {s t u : List Char} {e : Expr} (bracket : Token ['('] s) (inner : ExprText t e)
      (close : Token [')'] u) : PrimaryText (s ++ t ++ u) e
  | implicitMember {s : List Char} {n : String} (isName : IsName n)
      (token : Token ('.' :: n.toList) s) : PrimaryText s (.implicitMember n)
  | name {s : List Char} {n : String} (isName : IsName n) (token : Token n.toList s) :
      PrimaryText s (.name n)

/-- The expression, given how it is written. -/
inductive ExprText : List Char → Expr → Prop
  | primary {s : List Char} {e : Expr} (primary : PrimaryText s e) : ExprText s e
  | call {s t u v : List Char} {callee : Expr} {arguments : List (Argument Expr)}
      (called : ExprText s callee) (bracket : Token ['('] t)
      (separated : Separated ArgumentText u arguments) (close : Token [')'] v) :
      ExprText (s ++ t ++ u ++ v) (.call callee arguments)
  | member {s t u : List Char} {base : Expr} {n : String} (read : ExprText s base)
      (point : Token ['.'] t) (isName : IsName n) (token : Token n.toList u) :
      ExprText (s ++ t ++ u) (.member base n)

/-- The argument of a call, given how it is written. -/
inductive ArgumentText : List Char → Argument Expr → Prop
  | positional {s : List Char} {e : Expr} (value : ExprText s e) : ArgumentText s ⟨none, e⟩
  | labeled {s t u : List Char} {label : String} {e : Expr} (isName : IsName label)
      (token : Token label.toList s) (colon : Token [':'] t) (value : ExprText u e) :
      ArgumentText (s ++ t ++ u) ⟨some label, e⟩

end

/-- Induction along a written form, for primaries, expressions and arguments at once. -/
theorem ExprText.induction {primary expr : List Char → Expr → Prop}
    {argument : List Char → Argument Expr → Prop}
    (literal : ∀ {s t l}, LiteralText t l → Token t s → primary s (.literal l))
    (array : ∀ {s t u v items}, Token ['['] s →
      Separated (fun s e => ExprText s e ∧ expr s e) t items → (u = [] ∨ Token [','] u) →
      Token [']'] v → primary (s ++ t ++ u ++ v) (.array items))
    (parenthesized : ∀ {s t u e}, Token ['('] s → ExprText t e → expr t e → Token [')'] u →
      primary (s ++ t ++ u) e)
    (implicitMember : ∀ {s n}, IsName n → Token ('.' :: n.toList) s →
      primary s (.implicitMember n))
    (name : ∀ {s n}, IsName n → Token n.toList s → primary s (.name n))
    (ofPrimary : ∀ {s e}, PrimaryText s e → primary s e → expr s e)
    (call : ∀ {s t u v callee arguments}, ExprText s callee → expr s callee → Token ['('] t →
      Separated (fun s a => ArgumentText s a ∧ argument s a) u arguments → Token [')'] v →
      expr (s ++ t ++ u ++ v) (.call callee arguments))
    (member : ∀ {s t u base n}, ExprText s base → expr s base → Token ['.'] t → IsName n →
      Token n.toList u → expr (s ++ t ++ u) (.member base n))
    (positional : ∀ {s e}, ExprText s e → expr s e → argument s ⟨none, e⟩)
    (labeled : ∀ {s t u label e}, IsName label → Token label.toList s → Token [':'] t →
      ExprText u e → expr u e → argument (s ++ t ++ u) ⟨some label, e⟩) :
    ∀ {s e}, ExprText s e → expr s e := by
  intro s e h
  exact @ExprText.rec
    (fun s e _ => primary s e) (fun s e _ => expr s e) (fun s a _ => argument s a)
    (fun s es _ => Separated (fun s e => ExprText s e ∧ expr s e) s es)
    (fun s as _ => Separated (fun s a => ArgumentText s a ∧ argument s a) s as)
    literal (fun bracket _ comma close ih => array bracket ih comma close)
    (fun bracket inner close ih => parenthesized bracket inner ih close) implicitMember name
    ofPrimary (fun called bracket _ close ih ih' => call called ih bracket ih' close)
    (fun read point isName token ih => member read ih point isName token) positional
    (fun isName token colon value ih => labeled isName token colon value ih)
    .nil (fun first ih => .one ⟨first, ih⟩) (fun first comma _ ih ih' => .more ⟨first, ih⟩ comma ih')
    .nil (fun first ih => .one ⟨first, ih⟩) (fun first comma _ ih ih' => .more ⟨first, ih⟩ comma ih')
    s e h

theorem blanks_nil : Blanks [] := by
  simp [Blanks]

theorem Blanks.append {s t : List Char} (hs : Blanks s) (ht : Blanks t) : Blanks (s ++ t) := by
  intro c hc
  obtain hc | hc := List.mem_append.1 hc
  · exact hs c hc
  · exact ht c hc

theorem token_self (token : List Char) : Token token token :=
  ⟨[], [], blanks_nil, blanks_nil, by simp⟩

theorem Token.pad {token s before after : List Char} (h : Token token s) (hb : Blanks before)
    (ha : Blanks after) : Token token (before ++ s ++ after) := by
  obtain ⟨b, a, hb', ha', rfl⟩ := h
  exact ⟨before ++ b, a ++ after, hb.append hb', ha'.append ha, by simp only [List.append_assoc]⟩

/-! ### No phrase is empty -/

theorem Token.ne_nil {token s : List Char} (h : Token token s) (nonempty : token ≠ []) :
    s ≠ [] := by
  obtain ⟨before, after, -, -, rfl⟩ := h
  simp [nonempty]

theorem IsName.ne_nil {n : String} (h : IsName n) : n.toList ≠ [] := by
  obtain ⟨⟨c, s, written, -⟩, -⟩ := h
  rw [written]
  exact List.cons_ne_nil c s

theorem LiteralText.ne_nil {s : List Char} {l : Literal} (h : LiteralText s l) : s ≠ [] := by
  cases h with
  | double negative hw hf => cases negative <;> simp [signed]
  | integer negative hd value => cases negative <;> simp [signed, hd.1]
  | string quoted => exact List.cons_ne_nil _ _
  | boolean value => cases value <;> decide

theorem PrimaryText.ne_nil {s : List Char} {e : Expr} (h : PrimaryText s e) : s ≠ [] := by
  cases h with
  | literal written token => exact token.ne_nil written.ne_nil
  | array bracket _ _ _ =>
    simp only [List.append_assoc]
    exact List.append_ne_nil_of_left_ne_nil (bracket.ne_nil (by simp)) _
  | parenthesized bracket _ _ =>
    simp only [List.append_assoc]
    exact List.append_ne_nil_of_left_ne_nil (bracket.ne_nil (by simp)) _
  | implicitMember _ token => exact token.ne_nil (by simp)
  | name isName token => exact token.ne_nil isName.ne_nil

theorem ExprText.ne_nil {s : List Char} {e : Expr} (h : ExprText s e) : s ≠ [] := by
  cases h with
  | primary primary => exact primary.ne_nil
  | call _ _ _ close => exact List.append_ne_nil_of_right_ne_nil _ (close.ne_nil (by simp))
  | member _ _ isName token =>
    exact List.append_ne_nil_of_right_ne_nil _ (token.ne_nil isName.ne_nil)

theorem ArgumentText.ne_nil {s : List Char} {a : Argument Expr} (h : ArgumentText s a) :
    s ≠ [] := by
  cases h with
  | positional value => exact value.ne_nil
  | labeled _ _ _ value => exact List.append_ne_nil_of_right_ne_nil _ value.ne_nil

/-! ### Blanks at the ends -/

/-- The first and the last token of an expression take the blanks around it. -/
theorem ExprText.pad {s : List Char} {e : Expr} (h : ExprText s e) {before after : List Char}
    (hb : Blanks before) (ha : Blanks after) : ExprText (before ++ s ++ after) e := by
  refine @ExprText.induction
    (fun s e => ∀ before after, Blanks before → Blanks after →
      PrimaryText (before ++ s ++ after) e)
    (fun s e => ∀ before after, Blanks before → Blanks after →
      ExprText (before ++ s ++ after) e)
    (fun _ _ => True) ?literal ?array ?parenthesized ?implicitMember ?name ?ofPrimary ?call ?member
    ?positional ?labeled s e h before after hb ha
  case literal =>
    intro s t l written token before after hb ha
    exact .literal written (token.pad hb ha)
  case array =>
    intro s t u v items bracket separated comma close before after hb ha
    have opened := bracket.pad hb blanks_nil
    have closed := close.pad blanks_nil ha
    have inner := separated.mono fun _ _ item => item.1
    simpa only [List.append_assoc, List.nil_append, List.append_nil] using
      PrimaryText.array opened inner comma closed
  case parenthesized =>
    intro s t u e bracket inner _ close before after hb ha
    have opened := bracket.pad hb blanks_nil
    have closed := close.pad blanks_nil ha
    simpa only [List.append_assoc, List.nil_append, List.append_nil] using
      PrimaryText.parenthesized opened inner closed
  case implicitMember =>
    intro s n isName token before after hb ha
    exact .implicitMember isName (token.pad hb ha)
  case name =>
    intro s n isName token before after hb ha
    exact .name isName (token.pad hb ha)
  case ofPrimary =>
    intro s e _ ih before after hb ha
    exact .primary (ih before after hb ha)
  case call =>
    intro s t u v callee arguments _ ih bracket separated close before after hb ha
    have called := ih before [] hb blanks_nil
    have closed := close.pad blanks_nil ha
    have inner := separated.mono fun _ _ item => item.1
    simpa only [List.append_assoc, List.nil_append, List.append_nil] using
      ExprText.call called bracket inner closed
  case member =>
    intro s t u base n _ ih point isName token before after hb ha
    have read := ih before [] hb blanks_nil
    have padded := token.pad blanks_nil ha
    simpa only [List.append_assoc, List.nil_append, List.append_nil] using
      ExprText.member read point isName padded
  case positional => exact fun _ _ => trivial
  case labeled => exact fun _ _ _ _ _ => trivial

end Fluent.Grammar

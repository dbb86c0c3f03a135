import Fluent.Proofs.Reader.Lexemes

/-!
# Reading goes on and ends

Every rule that reads something takes at least one character from the text, whatever optional parts
it has. The rules for brackets use the rule for expressions only behind a bracket or a comma, that
is on a shorter text, so reading ends however deep brackets nest and whether they are closed or not.

The bounds on the depth of brackets and on the length of lists and of chains of suffixes are
therefore never reached: one could leave them out of the rules. Without them the rule for
expressions is described by an equation in which it occurs itself, and no other rule satisfies that
equation.

Main statements: `Reads.advances`; `postfixed_congr`, what an expression is read from;
`eq_expression_iff`, the equation; and `reading_advances_and_ends`.
-/
namespace Fluent.Reader

open Grammar

variable {α : Type}

/-! ### Rules go on -/

/-- What the rule leaves of a text begins at a place between two of its characters, and something
stands before that place. -/
def Advances (rule : Rule α) : Prop :=
  ∀ (s : String) x rest, rule s.toList = .ok (x, rest) →
    ∃ (place : s.Pos) (read : String), place.Splits read (String.ofList rest) ∧ read ≠ ""

/-- A rule that reads the phrases of a grammar goes on, if none of them is empty. -/
theorem Reads.advances {rule : Rule α} {phrase : List Char → α → Prop} (h : Reads rule phrase)
    (nonempty : ∀ {read x}, phrase read x → read ≠ []) : Advances rule := by
  intro s x rest found
  obtain ⟨read, split, isPhrase⟩ := h _ _ _ found
  have whole : s = String.ofList read ++ String.ofList rest := by
    rw [← String.ofList_append, ← split, String.ofList_toList]
  refine ⟨String.Pos.ofEqAppend whole, String.ofList read, String.Pos.splits_ofEqAppend whole,
    fun empty => nonempty isPhrase ?_⟩
  rw [← String.toList_ofList (l := read), empty]
  rfl

/-- A rule that goes on leaves a shorter text. -/
theorem Advances.length_lt {rule : Rule α} (h : Advances rule) {s rest : List Char} {x : α}
    (found : rule s = .ok (x, rest)) : rest.length < s.length := by
  have same : (String.ofList s).toList = s := String.toList_ofList
  obtain ⟨place, read, ⟨whole, -⟩, nonempty⟩ := h (String.ofList s) x rest (same.symm ▸ found)
  have split := congrArg String.toList whole
  rw [same, String.toList_append, String.toList_ofList] at split
  have some : read.toList ≠ [] := fun empty => nonempty (String.toList_eq_nil_iff.1 empty)
  have positive := List.length_pos_iff.2 some
  rw [split, List.length_append]
  omega

theorem length_lt_of_token {c : Char} {s rest : List Char} (h : token c s = some rest) :
    rest.length < s.length := by
  obtain ⟨read, rfl, mark⟩ := exists_of_token h
  have positive := List.length_pos_iff.2 (mark.ne_nil (List.cons_ne_nil c []))
  rw [List.length_append]
  omega

/-- One more item of a list, after its comma. -/
def nextItem (item : Rule α) : Rule α := fun s => do
  let s ← mark ',' s
  item s

theorem reads_nextItem {item : Rule α} {phrase : List Char → α → Prop} (h : Reads item phrase) :
    Reads (nextItem item) fun read _ => read ≠ [] := by
  intro s x rest found
  obtain ⟨left, comma, further⟩ := bind_eq_ok_iff.1 found
  obtain ⟨t, rfl, mark⟩ := exists_of_mark comma
  obtain ⟨u, rfl, -⟩ := h _ _ _ further
  exact ⟨t ++ u, by rw [List.append_assoc],
    List.append_ne_nil_of_left_ne_nil (mark.ne_nil (List.cons_ne_nil ',' [])) u⟩

theorem advances_identifier : Advances identifier :=
  reads_identifier.advances fun read => read.1 ▸ read.2.ne_nil

theorem advances_argument {inner : Rule Expr} (h : Reads inner ExprText) :
    Advances (argument inner) :=
  (reads_argument h).advances ArgumentText.ne_nil

theorem length_lt_of_nextItem {item : Rule α} (advances : Advances item) {s rest : List Char}
    {x : α} (found : nextItem item s = .ok (x, rest)) : rest.length < s.length := by
  obtain ⟨left, comma, further⟩ := bind_eq_ok_iff.1 found
  have shorter := length_lt_of_token (mark_eq_ok_iff.1 comma)
  have shortest := advances.length_lt further
  omega

theorem advances_suffix {inner : Rule Expr} (h : Reads inner ExprText) (e : Expr) :
    Advances (suffix inner e) :=
  (reads_suffix h e).advances And.left

/-! ### Behind brackets the text is shorter -/

/-- The rules read the same from every text that is shorter than so many characters, or tell the
same of their failure. -/
def AgreeBelow (length : Nat) (rule other : Rule α) : Prop :=
  ∀ s, s.length < length → other s = rule s

theorem AgreeBelow.refl (length : Nat) (rule : Rule α) : AgreeBelow length rule rule :=
  fun _ _ => rfl

theorem AgreeBelow.silent {length : Nat} {rule other : Rule α} (h : AgreeBelow length rule other)
    {s : List Char} (short : s.length < length) : silent other s = silent rule s :=
  congrArg result? (h s short)

section Congruence

variable {length : Nat} {s bound more : List Char}

/-- What follows a mark is read from a shorter text. -/
theorem mark_bind_congr {c : Char} {f g : List Char → Except Trace α}
    (agree : ∀ rest, rest.length < s.length → g rest = f rest) :
    (mark c s >>= g) = (mark c s >>= f) := by
  unfold mark
  cases found : token c s with
  | none => rfl
  | some rest => exact agree rest (length_lt_of_token found)

/-- By induction on one of the bounds: if the text is not longer than either, the lists that are
read are the same. -/
theorem moreItems_congr {item other : Rule α} (advances : Advances item)
    (agree : AgreeBelow length item other) (short : s.length < length)
    (enough : s.length ≤ bound.length) (enough' : s.length ≤ more.length) :
    moreItems (silent other) more s = moreItems (silent item) bound s := by
  induction bound generalizing more s with
  | nil =>
    obtain rfl : s = [] := List.length_eq_zero_iff.1 (Nat.le_zero.1 enough)
    cases more <;> rfl
  | cons c bound ih =>
    cases more with
    | nil =>
      obtain rfl : s = [] := List.length_eq_zero_iff.1 (Nat.le_zero.1 enough')
      rfl
    | cons d more =>
      simp only [List.length_cons] at enough enough'
      rw [moreItems, moreItems]
      cases comma : token ',' s with
      | none => rfl
      | some left =>
        have shorter := length_lt_of_token comma
        have beyond : left.length < length := by omega
        rw [Option.bind_some, Option.bind_some, agree.silent beyond]
        cases found : silent item left with
        | none => rfl
        | some next =>
          have shortest := advances.length_lt (silent_eq_some_iff.1 found)
          -- comma and item have taken more characters than the one that each bound loses
          have same : moreItems (silent other) more next.2 = moreItems (silent item) bound next.2 :=
            ih (by omega) (by omega) (by omega)
          simp only [same]

theorem items_congr {item other : Rule α} (advances : Advances item)
    (agree : AgreeBelow length item other) (short : s.length < length) :
    items (silent other) s = items (silent item) s := by
  rw [items, items, agree.silent short]
  cases found : silent item s with
  | none => rfl
  | some next =>
    have shorter := advances.length_lt (silent_eq_some_iff.1 found)
    have same : moreItems (silent other) next.2 next.2 = moreItems (silent item) next.2 next.2 :=
      moreItems_congr advances agree (by omega) (Nat.le_refl _) (Nat.le_refl _)
    simp only [same]

theorem map_congr {rule other : Rule α} {β : Type} (f : α → β) (same : other s = rule s) :
    other.map f s = rule.map f s := by
  rw [Rule.map, Rule.map, same]

theorem within_congr {rule other : Rule α} (name : String) (same : other s = rule s) :
    other.within name s = rule.within name s := by
  rw [Rule.within, Rule.within, same]

theorem either_congr {rule other first second : Rule α} (same : first s = rule s)
    (same' : second s = other s) : first.either second s = rule.either other s := by
  rw [Rule.either, Rule.either, same, same']

variable {inner other : Rule Expr}

theorem parenthesized_congr (agree : AgreeBelow length inner other) (short : s.length ≤ length) :
    parenthesized other s = parenthesized inner s := by
  refine mark_bind_congr fun rest shorter => ?_
  rw [agree rest (by omega)]

theorem array_congr (h : Reads inner ExprText) (agree : AgreeBelow length inner other)
    (short : s.length ≤ length) : array other s = array inner s := by
  refine within_congr "array" (mark_bind_congr fun rest shorter => ?_)
  have same : items (silent other) rest = items (silent inner) rest :=
    items_congr (h.advances ExprText.ne_nil) agree (by omega)
  simp only [same]

theorem primary_congr (h : Reads inner ExprText) (agree : AgreeBelow length inner other)
    (short : s.length ≤ length) : primary other s = primary inner s := by
  have skipped := Nat.le_trans (length_skipBlanks_le s) short
  have same : unpadded other (skipBlanks s) = unpadded inner (skipBlanks s) :=
    within_congr "Alt" <| either_congr rfl <| either_congr (array_congr h agree skipped) <|
      either_congr (parenthesized_congr agree skipped) rfl
  rw [primary, primary, same]

/-- An argument is read from the text itself or from a shorter one behind its label. -/
theorem argument_congr (agree : AgreeBelow length inner other) :
    AgreeBelow length (argument inner) (argument other) := by
  intro s short
  have labeled : labeledArgument other s = labeledArgument inner s := by
    rw [labeledArgument, labeledArgument]
    cases named : identifier (skipBlanks s) with
    | error trace => rw [error_bind, error_bind]
    | ok name =>
      have shorter := advances_identifier.length_lt named
      have skipped := length_skipBlanks_le s
      rw [ok_bind, ok_bind]
      exact mark_bind_congr fun rest shortest => map_congr _ (agree rest (by omega))
  exact within_congr "Alt" (either_congr labeled (map_congr _ (agree s short)))

theorem suffix_congr (h : Reads inner ExprText) (agree : AgreeBelow length inner other) (e : Expr)
    (short : s.length ≤ length) : suffix other e s = suffix inner e s := by
  have lists : argumentList other s = argumentList inner s := by
    refine within_congr "arguments" (mark_bind_congr fun rest shorter => ?_)
    have same : items (silent (argument other)) rest = items (silent (argument inner)) rest :=
      items_congr (advances_argument h) (argument_congr agree) (by omega)
    simp only [same]
  exact either_congr (map_congr _ lists) rfl

/-- By induction on one of the bounds: if the text is not longer than either, the suffixes that are
read are the same. -/
theorem suffixes_congr (h : Reads inner ExprText) (agree : AgreeBelow length inner other) (e : Expr)
    (short : s.length ≤ length) (enough : s.length ≤ bound.length)
    (enough' : s.length ≤ more.length) :
    suffixes other more e s = suffixes inner bound e s := by
  induction bound generalizing more e s with
  | nil =>
    obtain rfl : s = [] := List.length_eq_zero_iff.1 (Nat.le_zero.1 enough)
    cases more <;> rfl
  | cons c bound ih =>
    cases more with
    | nil =>
      obtain rfl : s = [] := List.length_eq_zero_iff.1 (Nat.le_zero.1 enough')
      rfl
    | cons d more =>
      simp only [List.length_cons] at enough enough'
      rw [suffixes, suffixes, suffix_congr h agree e short]
      cases found : suffix inner e s with
      | error trace => rfl
      | ok next =>
        have shorter := (advances_suffix h e).length_lt found
        exact ih next.1 (by omega) (by omega) (by omega)

/-- What is read from a text depends only on what is read inside brackets from shorter texts. -/
theorem postfixed_congr (h : Reads inner ExprText) (agree : AgreeBelow s.length inner other) :
    postfixed other s = postfixed inner s := by
  rw [postfixed, postfixed, primary_congr h agree (Nat.le_refl _)]
  cases found : primary inner s with
  | error trace => rw [error_bind, error_bind]
  | ok next =>
    obtain ⟨e, rest⟩ := next
    have shorter := ((reads_primary h).advances ExprText.ne_nil).length_lt found
    have same : suffixes other rest e rest = suffixes inner rest e rest :=
      suffixes_congr h agree e (Nat.le_of_lt shorter) (Nat.le_refl _) (Nat.le_refl _)
    simp only [ok_bind, same]

theorem expressionOver_congr (h : Reads inner ExprText) (agree : AgreeBelow s.length inner other) :
    expressionOver other s = expressionOver inner s :=
  within_congr "expression" (postfixed_congr h agree)

end Congruence

/-! ### Bounds are not reached -/

/-- A list of such items goes on, and ends, as if there were no bound: one that is not shorter than
the text has no say. -/
def Unbounded (item : Rule α) : Prop :=
  ∀ bound s, s.length ≤ bound.length →
    moreItems (silent item) bound s =
      match nextItem item s with
      | .error _ => ([], s)
      | .ok (x, rest) =>
        (x :: (moreItems (silent item) rest rest).1, (moreItems (silent item) rest rest).2)

theorem silent_nextItem (item : Rule α) (s : List Char) :
    silent (nextItem item) s = (token ',' s).bind (silent item) := by
  rw [silent, nextItem]
  simp only [result?_bind, result?_mark, result?_rule]

theorem Advances.unbounded {item : Rule α} (advances : Advances item) : Unbounded item := by
  intro bound s enough
  cases bound with
  | nil =>
    obtain rfl : s = [] := List.length_eq_zero_iff.1 (Nat.le_zero.1 enough)
    rfl
  | cons c bound =>
    rw [moreItems, ← silent_nextItem, silent]
    cases found : nextItem item s with
    | error trace => rfl
    | ok next =>
      have shorter := length_lt_of_nextItem advances found
      simp only [List.length_cons] at enough
      have same : moreItems (silent item) bound next.2 = moreItems (silent item) next.2 next.2 :=
        moreItems_congr advances (.refl s.length item) shorter (Nat.le_refl _) (by omega)
      simp only [result?_ok, same]

/-- A bound that is not shorter than the text lets suffixes follow one another as if there were
none. -/
theorem suffixes_eq {inner : Rule Expr} (h : Reads inner ExprText) {bound s : List Char} (e : Expr)
    (enough : s.length ≤ bound.length) :
    suffixes inner bound e s =
      match suffix inner e s with
      | .error _ => (e, s)
      | .ok (longer, rest) => suffixes inner rest longer rest := by
  cases bound with
  | nil =>
    obtain rfl : s = [] := List.length_eq_zero_iff.1 (Nat.le_zero.1 enough)
    rfl
  | cons c bound =>
    rw [suffixes]
    cases found : suffix inner e s with
    | error trace => rfl
    | ok next =>
      have shorter := (advances_suffix h e).length_lt found
      simp only [List.length_cons] at enough
      exact suffixes_congr h (.refl s.length inner) next.1 (Nat.le_of_lt shorter) (Nat.le_refl _)
        (by omega)

/-! ### The rule for expressions -/

/-- By induction on one of the depths: if both are longer than the text, they are alike. -/
theorem nested_depth {depth other s : List Char} (enough : s.length < depth.length)
    (enough' : s.length < other.length) : nested depth s = nested other s := by
  induction depth generalizing other s with
  | nil => exact absurd enough (Nat.not_lt_zero _)
  | cons c depth ih =>
    cases other with
    | nil => exact absurd enough' (Nat.not_lt_zero _)
    | cons d other =>
      refine expressionOver_congr (reads_nested other) fun t shorter => ?_
      simp only [List.length_cons] at enough enough'
      exact ih (by omega) (by omega)

theorem nested_eq_expression {depth s : List Char} (enough : s.length < depth.length) :
    nested depth s = expression s := by
  have longer : s.length < (' ' :: s).length := Nat.lt_succ_self s.length
  rw [nested_depth enough longer, nested, expression]

/-- The rule for expressions is the one that it uses itself inside brackets. -/
theorem expression_eq (s : List Char) : expression s = expressionOver expression s :=
  (expressionOver_congr (reads_nested s) fun _ shorter => (nested_eq_expression shorter).symm).symm

theorem expressionOver_eq_expression {rule : Rule Expr} {s : List Char}
    (agree : ∀ t, t.length < s.length → rule t = expression t) :
    expressionOver rule s = expression s :=
  (expressionOver_congr reads_expression agree).trans (expression_eq s).symm

/-- By induction on the length of the text: no other rule is the one that it uses itself inside
brackets. -/
theorem eq_expression_iff (rule : Rule Expr) :
    rule = expression ↔ ∀ s, rule s = expressionOver rule s := by
  constructor
  · rintro rfl
    exact expression_eq
  · intro solves
    -- inside brackets both rules see shorter texts, on which they agree
    have agree : ∀ n s, s.length < n → rule s = expression s := by
      intro n
      induction n with
      | zero => exact fun s impossible => absurd impossible (Nat.not_lt_zero _)
      | succ n ih =>
        intro s short
        rw [solves]
        exact expressionOver_eq_expression fun t shorter => ih t (by omega)
    funext s
    exact agree (s.length + 1) s (Nat.lt_succ_self _)

/-- A text is an expression with blanks around it, or something is left after an expression, or no
expression begins. -/
theorem parse_eq (s : String) :
    match expression (skipBlanks s.toList) with
    | .error _ => ∃ detail found span, Expr.parse s = .error (.noExpression detail found span)
    | .ok (e, rest) =>
      if skipBlanks rest = [] then Expr.parse s = .ok e
      else ∃ found span, Expr.parse s = .error (.trailing found span) := by
  rw [Expr.parse_eq_parseChars, Expr.parseChars, leadingExpression]
  cases expression (skipBlanks s.toList) with
  | error trace => exact ⟨_, _, _, rfl⟩
  | ok found =>
    rw [ok_bind]
    dsimp only
    cases skipBlanks found.2 with
    | nil => rw [if_pos rfl]; rfl
    | cons c rest =>
      rw [if_neg (List.cons_ne_nil c rest)]
      exact ⟨_, _, rfl⟩

/-- Whatever is read of a text ends behind its first character: an expression in any of its parts, a
suffix, an item of a list. So suffixes and items follow one another as if there were no bounds, what
is inside brackets is read from a shorter text, the rule that is the one it uses itself there is
unique, and every text is read or found to be wrong. -/
theorem reading_advances_and_ends :
    (Advances (primary expression) ∧ Advances expression ∧ Advances (postfixed expression) ∧
      Advances (array expression) ∧ Advances (argumentList expression) ∧
      Advances (argument expression) ∧ Advances literal ∧ Advances quoted ∧
      Advances identifier) ∧
    ((∀ e, Advances (suffix expression e)) ∧ Advances (nextItem expression) ∧
      Advances (nextItem (argument expression))) ∧
    (∀ bound e s, s.length ≤ bound.length → suffixes expression bound e s =
      match suffix expression e s with
      | .error _ => (e, s)
      | .ok (longer, rest) => suffixes expression rest longer rest) ∧
    Unbounded expression ∧ Unbounded (argument expression) ∧
    (∀ rule s, (∀ t, t.length < s.length → rule t = expression t) →
      expressionOver rule s = expression s) ∧
    (∀ rule, rule = expression ↔ ∀ s, rule s = expressionOver rule s) ∧
    ∀ s : String,
      match expression (skipBlanks s.toList) with
      | .error _ => ∃ detail found span, Expr.parse s = .error (.noExpression detail found span)
      | .ok (e, rest) =>
        if skipBlanks rest = [] then Expr.parse s = .ok e
        else ∃ found span, Expr.parse s = .error (.trailing found span) := by
  have h := reads_expression
  have expressions : Advances expression := h.advances ExprText.ne_nil
  have arguments : Advances (argument expression) := advances_argument h
  have lists : Advances (argumentList expression) := by
    refine (reads_argumentList h).advances ?_
    rintro read arguments ⟨t, u, v, rfl, bracket, -, -⟩
    rw [List.append_assoc]
    exact List.append_ne_nil_of_left_ne_nil (bracket.ne_nil (List.cons_ne_nil _ _)) _
  refine ⟨⟨(reads_primary h).advances ExprText.ne_nil, expressions,
      (reads_postfixed h).advances ExprText.ne_nil, (reads_array h).advances PrimaryText.ne_nil,
      lists, arguments, reads_literal.advances LiteralText.ne_nil,
      reads_quoted.advances LiteralText.ne_nil,
      advances_identifier⟩,
    ⟨advances_suffix h, (reads_nextItem h).advances id,
      (reads_nextItem (reads_argument h)).advances id⟩,
    fun _ e _ => suffixes_eq h e, expressions.unbounded, arguments.unbounded,
    fun _ _ => expressionOver_eq_expression, eq_expression_iff, parse_eq⟩

/-- Where brackets are not closed, the rules come to an end, too. The bounds may be longer than the
text, and inside the brackets a rule will do that reads three characters. -/
theorem reading_advances_and_ends_unclosed :
    let rule : Rule Expr := nested ['*', '*', '*']
    (∀ t : List Char, t.length < "f([".toList.length → rule t = expression t) ∧
      expressionOver rule "f([".toList = expression "f([".toList ∧
      suffixes expression ['*', '*', '*'] (.name "f") ['(', '['] = (.name "f", ['(', '[']) ∧
      ∃ found span, Expr.parse "f([" = .error (.trailing found span) := by
  intro rule
  have agree : ∀ t : List Char, t.length < "f([".toList.length → rule t = expression t :=
    fun t short => nested_eq_expression short
  obtain ⟨-, -, suffixes, -, -, inside, -, parses⟩ := reading_advances_and_ends
  have left : expression (skipBlanks "f([".toList) = .ok (.name "f", ['(', '[']) := rfl
  have parsed := parses "f(["
  rw [left] at parsed
  exact ⟨agree, inside rule _ agree, suffixes ['*', '*', '*'] (.name "f") ['(', '['] (by decide),
    parsed⟩

end Fluent.Reader

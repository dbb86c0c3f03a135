import Mathlib
import Fluent.Proofs.Reader.Lexemes

/-!
# What is written as the grammar says is read

An expression is read up to its end wherever the text after it neither goes on with its last name or
number nor adds another suffix. A member name leaves the blanks after it to the next rule, and the
other rules take them, so what is left is the text after the phrase up to blanks in front.

Brackets are read to any depth because the text is longer than its brackets nest: the bound on the
depth is one character shorter inside a pair of them, and so is the text.

Main statements: `found_of_exprText`, by induction along the written form; `Expr.parse_eq_ok_iff`,
the texts that are read as an expression are its written forms.
-/
namespace Fluent.Reader

open Grammar

/-! ## Lists -/

section Lists

variable {α : Type} {rule : Silent α} {phrase : List Char → α → Prop} {length : Nat}

/-- What reading a list needs of the rule for its items: blanks in front make no difference, no item
begins where a list ends, and the phrases are read in texts up to some length. -/
structure Itemizes (rule : Silent α) (phrase : List Char → α → Prop) (length : Nat) : Prop where
  skips : ∀ s, rule (skipBlanks s) = rule s
  stops : ∀ s, Ends s → rule s = none
  finds : ∀ s x rest, phrase s x → (s ++ rest).length ≤ length → Ends rest →
    ∃ left, skipBlanks left = skipBlanks rest ∧ rule (s ++ rest) = some (x, left)

/-- The commas alone are almost as many as the items. -/
theorem Separated.length_le {s : List Char} {xs : List α} (h : Separated phrase s xs) :
    xs.length ≤ s.length + 1 := by
  induction h with
  | nil => simp
  | one _ => simp
  | more _ comma _ ih =>
    obtain ⟨before, after, -, -, rfl⟩ := comma
    simp only [List.length_cons, List.length_append] at ih ⊢
    omega

/-- By induction on the list: the text after an item begins with the next comma, or is the one after
the list. -/
theorem moreItems_of_separated (item : Itemizes rule phrase length) {rest : List Char}
    (hrest : Ends rest) (stop : (token ',' rest).bind rule = none) {s : List Char} {list : List α}
    (h : Separated phrase s list) (hlen : (s ++ rest).length ≤ length) {x : α} {xs : List α}
    (hlist : list = x :: xs) :
    ∃ next left, rule (s ++ rest) = some (x, next) ∧ skipBlanks left = skipBlanks rest ∧
      xs.length ≤ next.length ∧
      ∀ bound : List Char, xs.length ≤ bound.length → moreItems rule bound next = (xs, left) := by
  induction h generalizing x xs with
  | nil => cases hlist
  | one first =>
    cases hlist
    obtain ⟨left, skipped, found⟩ := item.finds _ _ _ first hlen hrest
    refine ⟨left, left, found, skipped, Nat.zero_le _, fun bound _ => ?_⟩
    cases bound with
    | nil => rfl
    | cons _ bound => rw [moreItems, token_congr skipped, stop]
  | @more s t u y z zs first comma further ih =>
    cases hlist
    have notBlank : isBlank ',' = false := by decide
    obtain ⟨v, skipped, -, longer⟩ := skipBlanks_token comma notBlank (u ++ rest)
    have before : Ends (t ++ (u ++ rest)) := ends_of_token comma (by simp) _
    have parted : s ++ t ++ u ++ rest = s ++ (t ++ (u ++ rest)) := by simp only [List.append_assoc]
    rw [parted] at hlen ⊢
    obtain ⟨next, toNext, found⟩ := item.finds _ _ _ first hlen before
    have shorter : (u ++ rest).length ≤ length := by
      simp only [List.length_append] at hlen ⊢
      omega
    obtain ⟨later, left, foundLater, toRest, -, list⟩ := ih shorter rfl
    refine ⟨next, left, found, toRest, ?_, fun bound enough => ?_⟩
    · have many := Separated.length_le further
      have short := length_skipBlanks_le next
      rw [toNext, skipped] at short
      simp only [List.length_cons, List.length_append] at longer short many ⊢
      omega
    · obtain ⟨_, bound, rfl⟩ : ∃ c bound', bound = c :: bound' :=
        List.exists_cons_of_length_pos (by simp only [List.length_cons] at enough; omega)
      have second : (token ',' next).bind rule = some (z, later) := by
        rw [token_congr toNext, token_append comma notBlank, Option.bind_some, item.skips]
        exact foundLater
      have others := list bound (by simpa using enough)
      rw [moreItems, second]
      simp only [others]

theorem items_of_separated (item : Itemizes rule phrase length) {rest : List Char}
    (hrest : Ends rest) (stop : (token ',' rest).bind rule = none) {s : List Char} {xs : List α}
    (h : Separated phrase s xs) (hlen : (s ++ rest).length ≤ length) :
    ∃ left, skipBlanks left = skipBlanks rest ∧ items rule (skipBlanks (s ++ rest)) = (xs, left) := by
  cases xs with
  | nil =>
    cases h
    refine ⟨skipBlanks rest, skipBlanks_skipBlanks rest, ?_⟩
    rw [List.nil_append, items, item.skips, item.stops rest hrest]
  | cons x xs =>
    obtain ⟨next, left, found, toRest, enough, list⟩ :=
      moreItems_of_separated item hrest stop h hlen rfl
    refine ⟨left, toRest, ?_⟩
    rw [items, item.skips, found]
    simp only [list next enough]

end Lists

/-! ## Primaries -/

section Primaries

variable {inner : Rule Expr} {s rest : List Char}

theorem primary_skipBlanks (s : List Char) :
    silent (primary inner) (skipBlanks s) = silent (primary inner) s := by
  rw [silent_primary, silent_primary, skipBlanks_skipBlanks]

/-- A primary that begins with a bracket or a point is tried as nothing else before. -/
theorem implicitMember_eq_none {c : Char} (point : c ≠ '.') (s : List Char) :
    silent implicitMember (c :: s) = none := by
  simp [silent_implicitMember, char, point]

/-- No expression begins at a closing bracket, at a comma or at the end of the text. -/
theorem primary_ends (h : Ends s) : silent (primary inner) s = none := by
  rw [← primary_skipBlanks]
  cases skipped : skipBlanks s with
  | nil => rfl
  | cons c u =>
    have mark := h c u skipped
    have noLiteral := literal_mark (List.mem_append_right ['[', '(', '.'] mark) u
    simp only [List.mem_cons, List.not_mem_nil, or_false] at mark
    have notBlank : skipBlanks (c :: u) = c :: u := by rw [← skipped, skipBlanks_skipBlanks]
    have noName : beginsName c = false := by
      obtain rfl | rfl | rfl := mark <;> decide
    have bracket : c ≠ '[' ∧ c ≠ '(' ∧ c ≠ '.' := by
      obtain rfl | rfl | rfl := mark <;> decide
    simp [silent_primary, silent_unpadded, notBlank, noLiteral, silent_array,
      silent_parenthesized, token, bracket, implicitMember_eq_none, silent_identifier_cons noName]

theorem primary_literal {t : List Char} {l : Literal} (h : LiteralText t l)
    (hrest : Detached rest) (notBlank : skipBlanks (t ++ rest) = t ++ rest) :
    silent (primary inner) (t ++ rest) = some (.literal l, skipBlanks rest) := by
  simp [silent_primary, silent_unpadded, notBlank, literal_append h hrest]

theorem primary_name {n : String} (h : IsName n) (hrest : Detached rest) :
    silent (primary inner) (n.toList ++ rest) = some (.name n, skipBlanks rest) := by
  have noLiteral := literal_name h hrest.name
  have found := identifier_append h hrest.name
  obtain ⟨c, u, hn, begins, -⟩ := IsName.exists_cons h
  obtain ⟨notBlank, other⟩ := ne_of_beginsName begins
  simp only [List.mem_cons, List.not_mem_nil, or_false, not_or] at other
  rw [hn, List.cons_append] at noLiteral found ⊢
  have front := skipBlanks_cons_of_not_isBlank c (u ++ rest) notBlank
  simp [silent_primary, silent_unpadded, front, noLiteral, silent_array, silent_parenthesized,
    token, other, implicitMember_eq_none, found]

theorem primary_implicitMember {n : String} (h : IsName n) (hrest : Detached rest) :
    silent (primary inner) ('.' :: n.toList ++ rest) =
      some (.implicitMember n, skipBlanks rest) := by
  have noLiteral := literal_mark (by simp : '.' ∈ ['[', '(', '.', ')', ']', ',']) (n.toList ++ rest)
  have front := skipBlanks_cons_of_not_isBlank '.' (n.toList ++ rest) (by decide)
  have found := identifier_append h hrest.name
  simp [silent_primary, silent_unpadded, front, noLiteral, silent_array, silent_parenthesized,
    token, silent_implicitMember, char, found]

theorem primary_array {e : Expr} {left : List Char}
    (found : silent (array inner) s = some (e, left)) :
    silent (primary inner) s = some (e, skipBlanks left) := by
  rw [silent_array] at found
  obtain ⟨s₁, opened, -⟩ := Option.bind_eq_some_iff.1 found
  obtain ⟨u, begins⟩ := exists_of_token_eq_some opened
  have noLiteral := literal_mark (by simp : '[' ∈ ['[', '(', '.', ')', ']', ',']) u
  have read : silent (array inner) ('[' :: u) = some (e, left) := by
    rw [silent_array, ← begins, token_skipBlanks]
    exact found
  simp [silent_primary, silent_unpadded, begins, noLiteral, read]

theorem primary_parenthesized {e : Expr} {left : List Char}
    (found : silent (parenthesized inner) s = some (e, left)) :
    silent (primary inner) s = some (e, skipBlanks left) := by
  rw [silent_parenthesized] at found
  obtain ⟨s₁, opened, -⟩ := Option.bind_eq_some_iff.1 found
  obtain ⟨u, begins⟩ := exists_of_token_eq_some opened
  have noLiteral := literal_mark (by simp : '(' ∈ ['[', '(', '.', ')', ']', ',']) u
  have front : skipBlanks ('(' :: u) = '(' :: u := by rw [← begins, skipBlanks_skipBlanks]
  have noArray : silent (array inner) ('(' :: u) = none := by
    simp [silent_array, token, front]
  have read : silent (parenthesized inner) ('(' :: u) = some (e, left) := by
    rw [silent_parenthesized, ← begins, token_skipBlanks]
    exact found
  simp [silent_primary, silent_unpadded, begins, noLiteral, noArray, read]

end Primaries

/-! ## Suffixes and arguments -/

section Arguments

variable {inner : Rule Expr} {s rest : List Char}

theorem suffix_ends (h : Ends s) (e : Expr) : silent (suffix inner e) s = none := by
  have absent (c : Char) (other : c ∉ [')', ']', ',']) : token c s = none := by
    cases skipped : skipBlanks s with
    | nil => simp only [token, skipped]
    | cons d u =>
      refine token_eq_none skipped ?_
      rintro rfl
      exact other (h d u skipped)
  simp [silent_suffix, silent_argumentList, absent '(' (by decide), absent '.' (by decide)]

theorem suffixes_ends (h : Ends s) (bound : List Char) (e : Expr) :
    suffixes inner bound e s = (e, s) := by
  cases bound with
  | nil => rfl
  | cons _ bound => rw [suffixes_cons, suffix_ends h]

theorem postfixed_skipBlanks (s : List Char) :
    silent (postfixed inner) (skipBlanks s) = silent (postfixed inner) s := by
  rw [silent_postfixed, primary_skipBlanks, silent_postfixed]

theorem postfixed_ends (h : Ends s) : silent (postfixed inner) s = none := by
  rw [silent_postfixed, primary_ends h]
  rfl

theorem silent_nested_cons (c : Char) (depth s : List Char) :
    silent (nested (c :: depth)) s = silent (postfixed (nested depth)) s :=
  silent_expressionOver (nested depth) s

theorem nested_skipBlanks (depth s : List Char) :
    silent (nested depth) (skipBlanks s) = silent (nested depth) s := by
  cases depth with
  | nil => rfl
  | cons c depth => rw [silent_nested_cons, postfixed_skipBlanks, silent_nested_cons]

theorem nested_ends (depth : List Char) (h : Ends s) : silent (nested depth) s = none := by
  cases depth with
  | nil => rfl
  | cons c depth => rw [silent_nested_cons, postfixed_ends h]

theorem argument_skipBlanks (skips : ∀ s, silent inner (skipBlanks s) = silent inner s)
    (s : List Char) : silent (argument inner) (skipBlanks s) = silent (argument inner) s := by
  simp only [silent_argument, silent_labeledArgument, skipBlanks_skipBlanks, skips]

theorem identifier_ends (h : Ends s) : silent identifier (skipBlanks s) = none := by
  cases skipped : skipBlanks s with
  | nil => rfl
  | cons c u =>
    have mark := h c u skipped
    simp only [List.mem_cons, List.not_mem_nil, or_false] at mark
    have noName : beginsName c = false := by
      obtain rfl | rfl | rfl := mark <;> decide
    exact silent_identifier_cons noName u

theorem argument_ends (stops : silent inner s = none) (h : Ends s) :
    silent (argument inner) s = none := by
  simp [silent_argument, silent_labeledArgument, identifier_ends h, stops]

theorem labeledArgument_append {t u v : List Char} {label : String} {e : Expr} {left : List Char}
    (isName : IsName label) (token : Token label.toList t) (colon : Token [':'] u)
    (skips : ∀ s, silent inner (skipBlanks s) = silent inner s)
    (found : silent inner (v ++ rest) = some (e, left)) :
    silent (labeledArgument inner) (t ++ u ++ v ++ rest) = some (⟨some label, e⟩, left) := by
  obtain ⟨c, w, hn, begins, -⟩ := IsName.exists_cons isName
  obtain ⟨after, hafter, skipped⟩ := exists_of_tokenText token ⟨c, w, hn, (ne_of_beginsName begins).1⟩
  have notBlank : isBlank ':' = false := by decide
  obtain ⟨x, colonFirst, -, -⟩ := skipBlanks_token colon notBlank (v ++ rest)
  have detached : Detached (u ++ (v ++ rest)) := detached_of_skipBlanks fun d y same => by
    rw [colonFirst] at same
    cases same
    simp
  have named := identifier_append isName (detached.blanks hafter).name
  have marked : Reader.token ':' (after ++ (u ++ (v ++ rest))) = some (skipBlanks (v ++ rest)) := by
    rw [token_congr (skipBlanks_append hafter _), token_append colon notBlank]
  have parted : t ++ u ++ v ++ rest = t ++ (u ++ (v ++ rest)) := by simp only [List.append_assoc]
  rw [parted, silent_labeledArgument, skipped, named]
  simp [marked, skips, found]

end Arguments

/-- What follows the name that is read does not go on with it. -/
theorem identifier_eq_some {s left : List Char} {n : String}
    (h : silent identifier s = some (n, left)) : ∀ c ∈ left.head?, continuesName c = false := by
  rw [silent_identifier] at h
  obtain ⟨found, read, h⟩ := Option.bind_eq_some_iff.1 h
  split at h
  · cases h
  · cases h
    exact not_continuesName_of_run (silent_eq_some_iff.1 read)

/-- A point that a name follows ends the number or the name in front of it. -/
theorem detached_point {t u : List Char} {n : String} (point : Token ['.'] t) (isName : IsName n)
    (token : Token n.toList u) (rest : List Char) : Detached (t ++ (u ++ rest)) := by
  obtain ⟨before, after, hbefore, hafter, rfl⟩ := point
  obtain ⟨before', after', hbefore', -, rfl⟩ := token
  obtain ⟨c, w, hn, begins, -⟩ := IsName.exists_cons isName
  have parted : before ++ ['.'] ++ after ++ (before' ++ n.toList ++ after' ++ rest) =
      before ++ '.' :: ((after ++ before') ++ c :: (w ++ after' ++ rest)) := by
    simp only [hn, List.append_assoc, List.cons_append, List.nil_append]
  rw [parted]
  refine Detached.blanks ⟨by simp; decide, fun d x same => ?_⟩ hbefore
  cases blanks : after ++ before' with
  | nil =>
    rw [blanks] at same
    cases same
    exact not_isDigit_of_beginsName begins
  | cons b y =>
    rw [blanks] at same
    cases same
    have blank : isBlank d = true :=
      (isBlank_iff d).2 (hafter.append hbefore' d (by rw [blanks]; exact List.mem_cons_self))
    by_contra digit
    rw [Bool.not_eq_false] at digit
    have notName := (not_continuesName_of_isBlank blank).1
    rw [continuesName_of_isDigit digit] at notName
    cases notName

/-- An expression is no label: where it begins with a name, the text after that name begins with a
suffix of the expression or with what follows it. -/
theorem not_label_of_exprText {s : List Char} {e : Expr} (h : ExprText s e) :
    ∀ rest, Detached rest → token ':' rest = none → ∀ n left,
      silent identifier (skipBlanks (s ++ rest)) = some (n, left) → token ':' left = none := by
  let Unlabeled s := ∀ rest, Detached rest → token ':' rest = none → ∀ n left,
    silent identifier (skipBlanks (s ++ rest)) = some (n, left) → token ':' left = none
  have marked {s : List Char} {c : Char} (begins : Token [c] s) (notBlank : isBlank c = false)
      (other : beginsName c = false) {rest n left} :
      silent identifier (skipBlanks (s ++ rest)) ≠ some (n, left) := by
    obtain ⟨u, skipped, -⟩ := skipBlanks_token begins notBlank rest
    rw [skipped]
    simp [silent_identifier_cons other]
  refine @ExprText.induction (fun s _ => Unlabeled s) (fun s _ => Unlabeled s) (fun _ _ => True)
    ?literal ?array ?parenthesized ?implicitMember ?name ?ofPrimary ?call ?member ?positional
    ?labeled s e h
  case literal =>
    intro s t l written token rest hrest _ n left named
    obtain ⟨after, hafter, skipped⟩ := exists_of_tokenText token (LiteralText.exists_cons written)
    have found := literal_append written (hrest.blanks hafter)
    rw [skipped] at named
    obtain ⟨_, same, rfl, isName⟩ := reads_identifier _ _ _ (silent_eq_some_iff.1 named)
    rw [same, literal_name isName (identifier_eq_some named)] at found
    cases found
  case array =>
    intro s t u v items bracket _ _ _ rest _ _ n left named
    simp only [List.append_assoc] at named
    exact absurd named (marked bracket (by decide) (by decide))
  case parenthesized =>
    intro s t u e bracket _ _ _ rest _ _ n left named
    simp only [List.append_assoc] at named
    exact absurd named (marked bracket (by decide) (by decide))
  case implicitMember =>
    intro s m isName token rest _ _ n left named
    obtain ⟨after, -, skipped⟩ := exists_of_tokenText token ⟨'.', _, rfl, by decide⟩
    have other : beginsName '.' = false := by decide
    rw [skipped, List.cons_append, silent_identifier_cons other] at named
    cases named
  case name =>
    intro s m isName token rest hrest none n left named
    obtain ⟨c, u, hm, begins, -⟩ := IsName.exists_cons isName
    obtain ⟨after, hafter, skipped⟩ := exists_of_tokenText token ⟨c, u, hm, (ne_of_beginsName begins).1⟩
    rw [skipped, identifier_append isName (hrest.blanks hafter).name] at named
    cases named
    rw [token_congr (skipBlanks_append hafter rest), none]
  case ofPrimary => exact fun _ ih => ih
  case call =>
    intro s t u v callee arguments _ ih bracket _ _ rest _ _ n left named
    obtain ⟨w, skipped, -⟩ := skipBlanks_token bracket (by decide) (u ++ v ++ rest)
    simp only [List.append_assoc] at named skipped
    apply ih _ _ (token_eq_none skipped (by decide)) n left named
    refine detached_of_skipBlanks fun d y same => ?_
    rw [skipped] at same
    cases same
    simp
  case member =>
    intro s t u base m _ ih point isName token rest _ _ n left named
    obtain ⟨w, skipped, -⟩ := skipBlanks_token point (by decide) (u ++ rest)
    simp only [List.append_assoc] at named
    exact ih _ (detached_point point isName token rest) (token_eq_none skipped (by decide)) n left
      named
  case positional => exact fun _ _ => trivial
  case labeled => exact fun _ _ _ _ _ => trivial

/-! ## Expressions -/

/-- The primary is read wherever the phrase stands, with brackets nesting as deep as the text
allows. -/
def PrimaryFound (s : List Char) (e : Expr) : Prop :=
  ∀ depth rest, (skipBlanks (s ++ rest)).length ≤ depth.length + 1 → Detached rest →
    silent (primary (nested depth)) (s ++ rest) = some (e, skipBlanks rest)

/-- The expression is read wherever the phrase stands, and the suffixes that follow are then still
to be read. -/
def Found (s : List Char) (e : Expr) : Prop :=
  ∀ depth rest, (skipBlanks (s ++ rest)).length ≤ depth.length + 1 → Detached rest →
    ∃ bound left, skipBlanks left = skipBlanks rest ∧ left.length ≤ bound.length ∧
      silent (postfixed (nested depth)) (s ++ rest) = some (suffixes (nested depth) bound e left)

/-- The argument is read wherever the phrase stands at the end of an item. -/
def ArgumentFound (s : List Char) (a : Argument Expr) : Prop :=
  ∀ depth rest, (s ++ rest).length ≤ depth.length → Ends rest →
    ∃ left, skipBlanks left = skipBlanks rest ∧
      silent (argument (nested depth)) (s ++ rest) = some (a, left)

theorem ends_congr {s t : List Char} (same : skipBlanks s = skipBlanks t) (h : Ends t) : Ends s := by
  intro c u begins
  exact h c u (same ▸ begins)

/-- Where no suffix can follow, the expression ends. -/
theorem Found.ends {s : List Char} {e : Expr} (h : Found s e) (depth : List Char) {rest : List Char}
    (hlen : (skipBlanks (s ++ rest)).length ≤ depth.length + 1) (hrest : Ends rest) :
    ∃ left, skipBlanks left = skipBlanks rest ∧
      silent (postfixed (nested depth)) (s ++ rest) = some (e, left) := by
  obtain ⟨bound, left, toRest, -, found⟩ := h depth rest hlen hrest.detached
  rw [suffixes_ends (ends_congr toRest hrest)] at found
  exact ⟨left, toRest, found⟩

theorem Found.nested {s : List Char} {e : Expr} (h : Found s e) {depth rest : List Char}
    (hlen : (s ++ rest).length ≤ depth.length) (hrest : Ends rest) :
    ∃ left, skipBlanks left = skipBlanks rest ∧
      silent (Reader.nested depth) (s ++ rest) = some (e, left) := by
  cases depth with
  | nil =>
    -- Nothing is no expression.
    have empty : s ++ rest = [] := List.length_eq_zero_iff.1 (Nat.le_zero.1 hlen)
    obtain ⟨left, -, found⟩ := h.ends [] (by simp [empty]) hrest
    rw [empty, postfixed_ends ends_nil] at found
    cases found
  | cons c depth =>
    rw [silent_nested_cons]
    exact h.ends depth (Nat.le_trans (length_skipBlanks_le _) hlen) hrest

theorem itemizes_nested (depth : List Char) :
    Itemizes (silent (nested depth)) (fun s e => ExprText s e ∧ Found s e) depth.length where
  skips := nested_skipBlanks depth
  stops _ := nested_ends depth
  finds _ _ _ item hlen hrest := item.2.nested hlen hrest

theorem itemizes_argument (depth : List Char) :
    Itemizes (silent (argument (nested depth)))
      (fun s a => ArgumentText s a ∧ ArgumentFound s a) depth.length where
  skips := argument_skipBlanks (nested_skipBlanks depth)
  stops _ h := argument_ends (nested_ends depth h) h
  finds _ _ _ item hlen hrest := item.2 _ _ hlen hrest

/-- The text after an opening bracket is one that the next depth allows. -/
theorem length_of_bracket (before : List Char) {c : Char} {s rest : List Char}
    (bracket : Token [c] s) (notBlank : isBlank c = false) {depth : List Char}
    (hlen : (skipBlanks (before ++ (s ++ rest))).length ≤ depth.length + 1) :
    rest.length ≤ depth.length := by
  obtain ⟨u, skipped, -, longer⟩ := skipBlanks_token bracket notBlank rest
  have short := length_skipBlanks_append before (s ++ rest)
  rw [skipped, List.length_cons] at short
  omega

/-- A comma after the last item is taken. -/
theorem skipBlanks_getD_token {u rest left : List Char} (comma : u = [] ∨ Token [','] u)
    (noComma : token ',' rest = none) (toRest : skipBlanks left = skipBlanks (u ++ rest)) :
    skipBlanks ((token ',' left).getD left) = skipBlanks rest := by
  rw [token_congr toRest]
  obtain rfl | comma := comma
  · rw [List.nil_append, noComma]
    exact toRest
  · rw [token_append comma (by decide)]
    exact skipBlanks_skipBlanks rest

theorem primaryFound_array {s t u v : List Char} {items : List Expr} (bracket : Token ['['] s)
    (separated : Separated (fun s e => ExprText s e ∧ Found s e) t items)
    (comma : u = [] ∨ Token [','] u) (close : Token [']'] v) :
    PrimaryFound (s ++ t ++ u ++ v) (.array items) := by
  intro depth rest hlen hrest
  have parted : s ++ t ++ u ++ v ++ rest = s ++ (t ++ (u ++ (v ++ rest))) := by
    simp only [List.append_assoc]
  rw [parted] at hlen ⊢
  have shorter := length_of_bracket [] bracket (by decide) hlen
  have closing : Ends (v ++ rest) := ends_of_token close (by simp) rest
  have noComma : token ',' (v ++ rest) = none := by
    obtain ⟨w, skipped, -⟩ := skipBlanks_token close (by decide) rest
    exact token_eq_none skipped (by decide)
  have ending : Ends (u ++ (v ++ rest)) ∧
      (token ',' (u ++ (v ++ rest))).bind (silent (nested depth)) = none := by
    obtain rfl | comma := comma
    · exact ⟨closing, by rw [List.nil_append, noComma, Option.bind_none]⟩
    · refine ⟨ends_of_token comma (by simp) _, ?_⟩
      rw [token_append comma (by decide), Option.bind_some, nested_skipBlanks,
        nested_ends depth closing]
  obtain ⟨left, toRest, list⟩ :=
    items_of_separated (itemizes_nested depth) ending.1 ending.2 separated shorter
  have closed := token_congr (skipBlanks_getD_token comma noComma toRest) ']'
  rw [token_append close (by decide)] at closed
  have found : silent (array (nested depth)) (s ++ (t ++ (u ++ (v ++ rest)))) =
      some (.array items, skipBlanks rest) := by
    simp [silent_array, token_append bracket (by decide), list, closed]
  rw [primary_array found, skipBlanks_skipBlanks]

theorem primaryFound_parenthesized {s t u : List Char} {e : Expr} (bracket : Token ['('] s)
    (inner : Found t e) (close : Token [')'] u) : PrimaryFound (s ++ t ++ u) e := by
  intro depth rest hlen hrest
  have parted : s ++ t ++ u ++ rest = s ++ (t ++ (u ++ rest)) := by simp only [List.append_assoc]
  rw [parted] at hlen ⊢
  have shorter := length_of_bracket [] bracket (by decide) hlen
  obtain ⟨left, toRest, read⟩ := inner.nested shorter (ends_of_token close (by simp) rest)
  have closed := token_congr toRest ')'
  rw [token_append close (by decide)] at closed
  have found : silent (parenthesized (nested depth)) (s ++ (t ++ (u ++ rest))) =
      some (e, skipBlanks rest) := by
    simp [silent_parenthesized, token_append bracket (by decide), nested_skipBlanks, read, closed]
  rw [primary_parenthesized found, skipBlanks_skipBlanks]

/-- A suffix that is read to its end leaves the bound long enough for those after it. -/
theorem exists_of_suffix_eq {inner : Rule Expr} {e e' : Expr} {bound left next : List Char}
    (enough : left.length ≤ bound.length) (shorter : next.length < left.length)
    (found : silent (suffix inner e) left = some (e', next)) :
    ∃ bound', next.length ≤ bound'.length ∧
      suffixes inner bound e left = suffixes inner bound' e' next := by
  obtain ⟨_, bound', rfl⟩ : ∃ c bound', bound = c :: bound' :=
    List.exists_cons_of_length_pos (by omega)
  refine ⟨bound', ?_, by rw [suffixes_cons, found]⟩
  rw [List.length_cons] at enough
  omega

theorem found_call {s t u v : List Char} {callee : Expr} {arguments : List (Argument Expr)}
    (called : Found s callee) (bracket : Token ['('] t)
    (separated : Separated (fun s a => ArgumentText s a ∧ ArgumentFound s a) u arguments)
    (close : Token [')'] v) : Found (s ++ t ++ u ++ v) (.call callee arguments) := by
  intro depth rest hlen hrest
  have parted : s ++ t ++ u ++ v ++ rest = s ++ (t ++ (u ++ (v ++ rest))) := by
    simp only [List.append_assoc]
  rw [parted] at hlen ⊢
  obtain ⟨w, skipped, -, longer⟩ := skipBlanks_token bracket (by decide) (u ++ (v ++ rest))
  have detached : Detached (t ++ (u ++ (v ++ rest))) := detached_of_skipBlanks fun c y same => by
    rw [skipped] at same
    cases same
    simp
  obtain ⟨bound, left, toBracket, enough, read⟩ := called depth _ hlen detached
  have shorter := length_of_bracket s bracket (by decide) hlen
  have closing : Ends (v ++ rest) := ends_of_token close (by simp) rest
  obtain ⟨x, ending, -⟩ := skipBlanks_token close (by decide) rest
  have noComma : (token ',' (v ++ rest)).bind (silent (argument (nested depth))) = none := by
    rw [token_eq_none ending (by decide), Option.bind_none]
  obtain ⟨last, toClose, list⟩ :=
    items_of_separated (itemizes_argument depth) closing noComma separated shorter
  have opened := token_congr toBracket '('
  have closed := token_congr toClose ')'
  rw [token_append bracket (by decide)] at opened
  rw [token_append close (by decide)] at closed
  have found : silent (suffix (nested depth) callee) left =
      some (.call callee arguments, skipBlanks rest) := by
    simp [silent_suffix, silent_argumentList, opened, list, closed]
  have progress : (skipBlanks rest).length < left.length := by
    have short := length_skipBlanks_le left
    have shortest := length_skipBlanks_le rest
    rw [toBracket, skipped] at short
    simp only [List.length_cons, List.length_append] at short longer
    omega
  obtain ⟨bound', enough', further⟩ := exists_of_suffix_eq enough progress found
  exact ⟨bound', skipBlanks rest, skipBlanks_skipBlanks rest, enough', by rw [read, further]⟩

theorem found_member {s t u : List Char} {base : Expr} {n : String} (read : Found s base)
    (point : Token ['.'] t) (isName : IsName n) (token : Token n.toList u) :
    Found (s ++ t ++ u) (.member base n) := by
  intro depth rest hlen hrest
  have parted : s ++ t ++ u ++ rest = s ++ (t ++ (u ++ rest)) := by simp only [List.append_assoc]
  rw [parted] at hlen ⊢
  obtain ⟨bound, left, toPoint, enough, found⟩ :=
    read depth _ hlen (detached_point point isName token rest)
  obtain ⟨w, skipped, -, longer⟩ := skipBlanks_token point (by decide) (u ++ rest)
  obtain ⟨c, y, hn, begins, -⟩ := IsName.exists_cons isName
  obtain ⟨after, hafter, named⟩ :=
    exists_of_tokenText token ⟨c, y, hn, (ne_of_beginsName begins).1⟩
  have pointed := token_congr toPoint '.'
  rw [token_append point (by decide), named] at pointed
  have noCall : Reader.token '(' left = none := by
    rw [token_congr toPoint]
    exact token_eq_none skipped (by decide)
  have suffixed : silent (suffix (nested depth) base) left =
      some (.member base n, after ++ rest) := by
    simp [silent_suffix, silent_argumentList, noCall, pointed,
      identifier_append isName (hrest.blanks hafter).name]
  have progress : (after ++ rest).length < left.length := by
    have short := length_skipBlanks_le left
    have shorter := length_skipBlanks_le (u ++ rest)
    rw [toPoint, skipped] at short
    rw [named] at shorter
    simp only [List.length_cons, List.length_append] at short shorter longer ⊢
    omega
  obtain ⟨bound', enough', further⟩ := exists_of_suffix_eq enough progress suffixed
  exact ⟨bound', after ++ rest, skipBlanks_append hafter rest, enough', by rw [found, further]⟩

/-- By induction along the written form. -/
theorem found_of_exprText {s : List Char} {e : Expr} (h : ExprText s e) : Found s e := by
  refine @ExprText.induction PrimaryFound Found ArgumentFound ?literal ?array ?parenthesized
    ?implicitMember ?name ?ofPrimary ?call ?member ?positional ?labeled s e h
  case literal =>
    intro s t l written token depth rest _ hrest
    have first := LiteralText.exists_cons written
    obtain ⟨after, hafter, skipped⟩ := exists_of_tokenText token first
    obtain ⟨c, u, rfl, notBlank⟩ := first
    have front := skipBlanks_cons_of_not_isBlank c (u ++ (after ++ rest)) notBlank
    rw [← primary_skipBlanks, skipped,
      primary_literal written (hrest.blanks hafter) front, skipBlanks_append hafter]
  case array =>
    intro s t u v items bracket separated comma close
    exact primaryFound_array bracket separated comma close
  case parenthesized =>
    intro s t u e bracket _ inner close
    exact primaryFound_parenthesized bracket inner close
  case implicitMember =>
    intro s n isName token depth rest _ hrest
    obtain ⟨after, hafter, skipped⟩ := exists_of_tokenText token ⟨'.', _, rfl, by decide⟩
    rw [← primary_skipBlanks, skipped, primary_implicitMember isName (hrest.blanks hafter),
      skipBlanks_append hafter]
  case name =>
    intro s n isName token depth rest _ hrest
    obtain ⟨c, u, hn, begins, -⟩ := IsName.exists_cons isName
    obtain ⟨after, hafter, skipped⟩ :=
      exists_of_tokenText token ⟨c, u, hn, (ne_of_beginsName begins).1⟩
    rw [← primary_skipBlanks, skipped, primary_name isName (hrest.blanks hafter),
      skipBlanks_append hafter]
  case ofPrimary =>
    intro s e _ ih depth rest hlen hrest
    refine ⟨skipBlanks rest, skipBlanks rest, skipBlanks_skipBlanks rest, Nat.le_refl _, ?_⟩
    rw [silent_postfixed, ih depth rest hlen hrest]
    rfl
  case call =>
    intro s t u v callee arguments _ called bracket separated close
    exact found_call called bracket separated close
  case member =>
    intro s t u base n _ read point isName token
    exact found_member read point isName token
  case positional =>
    intro s e written ih depth rest hlen hrest
    obtain ⟨left, toRest, found⟩ := ih.nested hlen hrest
    have noColon : token ':' rest = none := by
      cases skipped : skipBlanks rest with
      | nil => simp only [token, skipped]
      | cons c u =>
        refine token_eq_none skipped ?_
        rintro rfl
        exact absurd (hrest _ u skipped) (by decide)
    have unlabeled : silent (labeledArgument (nested depth)) (s ++ rest) = none := by
      cases named : silent identifier (skipBlanks (s ++ rest)) with
      | none => simp [silent_labeledArgument, named]
      | some label =>
        have noLabel := not_label_of_exprText written rest hrest.detached noColon _ _ named
        simp [silent_labeledArgument, named, noLabel]
    exact ⟨left, toRest, by simp [silent_argument, unlabeled, found]⟩
  case labeled =>
    intro s t u label e isName token colon _ ih depth rest hlen hrest
    have shorter : (u ++ rest).length ≤ depth.length := by
      simp only [List.length_append] at hlen ⊢
      omega
    obtain ⟨left, toRest, found⟩ := ih.nested shorter hrest
    have labeled := labeledArgument_append isName token colon (nested_skipBlanks depth) found
    exact ⟨left, toRest, by rw [silent_argument, labeled]; rfl⟩

theorem leadingExpression_of_exprText {s : List Char} {e : Expr} (h : ExprText s e) :
    leadingExpression s = .ok (e, []) := by
  have found := found_of_exprText h
  have short : (skipBlanks (s ++ [])).length ≤ (skipBlanks s).length + 1 := by simp
  obtain ⟨left, toEnd, read⟩ := found.ends (skipBlanks s) short ends_nil
  rw [List.append_nil, ← postfixed_skipBlanks, ← silent_expressionOver] at read
  rw [leadingExpression, expression, silent_eq_some_iff.1 read, ok_bind]
  exact congrArg (fun rest => Except.ok (e, rest)) (toEnd.trans skipBlanks_nil)

end Fluent.Reader

namespace Fluent.Expr

theorem parse_of_exprText {s : String} {e : Expr} (h : Grammar.ExprText s.toList e) :
    parse s = .ok e := by
  rw [parse_eq_parseChars, parseChars, Reader.leadingExpression_of_exprText h, whole]

/-- A text is read as an expression exactly if it is a written form of it, and no text is a written
form of two. -/
theorem parse_eq_ok_iff (s : String) :
    (∀ e, parse s = .ok e ↔ Grammar.ExprText s.toList e) ∧
      ∀ e f, Grammar.ExprText s.toList e → Grammar.ExprText s.toList f → e = f := by
  refine ⟨fun e => ⟨exprText_of_parse, parse_of_exprText⟩, fun e f he hf => ?_⟩
  have read := parse_of_exprText he
  rw [parse_of_exprText hf] at read
  exact (Except.ok.inj read).symm

/-- A call with an array under a label and an implicit member, and a member of what it answers. -/
theorem parse_eq_ok_iff_labeled_array :
    Grammar.ExprText "a (b: [-1 , \"\\\"\",], .c)\t. d".toList
      (.member (.call (.name "a")
        [⟨some "b", .array [.literal (.integer (-1)), .literal (.string "\"")]⟩,
          ⟨none, .implicitMember "c"⟩]) "d") :=
  ((parse_eq_ok_iff _).1 _).1 (by
    rw [parse_eq_parseChars]
    cbv)

end Fluent.Expr

import Mathlib.Data.List.TakeWhile
import Mathlib.Data.Option.Basic
import Fluent.Proofs.Reader.Erasure
import Fluent.Proofs.Reader.Grammar

/-!
# What is read is written as the grammar says

Every rule answers a phrase of the grammar and leaves what stands after that phrase. The rules for
brackets take the rule for expressions as an argument, and so do the lemmas about them.

Main statements: `reads_nested`, for expressions in brackets of any depth; `exprText_of_parse`, a text
that reads as an expression is a written form of it.
-/
namespace Fluent.Reader

open Grammar

/-- Whatever the rule reads is a phrase, with what is left after it. -/
def Reads {α : Type} (rule : Rule α) (phrase : List Char → α → Prop) : Prop :=
  ∀ s x rest, rule s = .ok (x, rest) → ∃ read, s = read ++ rest ∧ phrase read x

theorem isBlank_iff (c : Char) : isBlank c = true ↔ c ∈ [' ', '\t', '\r', '\n'] := by
  simp [isBlank, or_assoc]

theorem exists_blanks_skipBlanks (s : List Char) :
    ∃ blanks, Blanks blanks ∧ s = blanks ++ skipBlanks s := by
  refine ⟨s.takeWhile isBlank, ?_, (takeWhile_append_skipBlanks s).symm⟩
  intro c hc
  exact (isBlank_iff c).1 (List.mem_takeWhile_imp hc)

theorem exists_of_token {c : Char} {s rest : List Char} (h : token c s = some rest) :
    ∃ read, s = read ++ rest ∧ Token [c] read := by
  obtain ⟨before, hbefore, hs⟩ := exists_blanks_skipBlanks s
  unfold token at h
  split at h
  · cases h
  · rename_i d tail found
    split at h
    · rename_i same
      cases h
      subst same
      obtain ⟨after, hafter, htail⟩ := exists_blanks_skipBlanks tail
      refine ⟨before ++ [d] ++ after, ?_, before, after, hbefore, hafter, rfl⟩
      rw [hs, found]
      simp only [List.append_assoc, List.cons_append, List.nil_append, ← htail]
    · cases h

theorem exists_of_mark {c : Char} {s rest : List Char} (h : mark c s = .ok rest) :
    ∃ read, s = read ++ rest ∧ Token [c] read :=
  exists_of_token (mark_eq_ok_iff.1 h)

/-! ## Combined rules -/

section Combined

variable {α β : Type} {rule other : Rule α} {phrase : List Char → α → Prop}

/-- A rule whose answer is made into something else reads what that is written as. -/
theorem Reads.map (h : Reads rule phrase) {written : List Char → β → Prop} (f : α → β)
    (dress : ∀ s x, phrase s x → written s (f x)) : Reads (rule.map f) written := by
  intro s y rest hy
  rw [← silent_eq_some_iff, silent_map] at hy
  obtain ⟨⟨x, left⟩, found, same⟩ := Option.map_eq_some_iff.1 hy
  cases same
  obtain ⟨read, hs, hx⟩ := h s x left (silent_eq_some_iff.1 found)
  exact ⟨read, hs, dress read x hx⟩

theorem Reads.within (h : Reads rule phrase) (name : String) : Reads (rule.within name) phrase := by
  intro s x rest hx
  rw [← silent_eq_some_iff, silent_within] at hx
  exact h s x rest (silent_eq_some_iff.1 hx)

theorem Reads.either (h : Reads rule phrase) (h' : Reads other phrase) :
    Reads (rule.either other) phrase := by
  intro s x rest hx
  rw [← silent_eq_some_iff, silent_either] at hx
  obtain hx | ⟨-, hx⟩ := (Option.orElse_eq_some _ _ _).1 hx
  · exact h s x rest (silent_eq_some_iff.1 hx)
  · exact h' s x rest (silent_eq_some_iff.1 hx)

end Combined

/-! ## Names and literals -/

theorem beginsName_iff (c : Char) :
    beginsName c = true ↔ Text.isAlphabetic c = true ∨ c = '_' := by
  simp [beginsName]

theorem continuesName_iff (c : Char) :
    continuesName c = true ↔ Text.isAlphanumeric c = true ∨ c = '_' := by
  simp [continuesName]

theorem reads_run : Reads run fun s n => s = n.toList ∧ ∃ c t, s = c :: t ∧
    (Text.isAlphabetic c = true ∨ c = '_') ∧
      ∀ d ∈ t, Text.isAlphanumeric d = true ∨ d = '_' := by
  intro s n rest h
  cases s with
  | nil => cases h
  | cons c s =>
    rw [run] at h
    split at h
    · rename_i begins
      cases h
      refine ⟨c :: s.takeWhile continuesName, ?_, by simp, c, s.takeWhile continuesName, rfl,
        (beginsName_iff c).1 begins, fun d hd => ?_⟩
      · simp only [List.cons_append, List.takeWhile_append_dropWhile]
      · exact (continuesName_iff d).1 (List.mem_takeWhile_imp hd)
    · cases h

theorem reads_identifier : Reads identifier fun s n => s = n.toList ∧ IsName n := by
  intro s n rest h
  unfold identifier at h
  obtain ⟨⟨name, left⟩, found, h⟩ := bind_eq_ok_iff.1 h
  dsimp only at h
  split at h
  · cases h
  · rename_i free
    cases h
    obtain ⟨read, hs, rfl, named⟩ := reads_run.within "identifier" _ _ _ found
    simp only [reserved, List.contains_eq_mem, decide_eq_true_eq, List.mem_cons, List.not_mem_nil,
      or_false, not_or] at free
    exact ⟨n.toList, hs, rfl, named, free⟩

theorem signed_splitSign (s : List Char) :
    signed (Decimal.splitSign s).1 (Decimal.splitSign s).2 = s := by
  unfold Decimal.splitSign
  split <;> rfl

theorem signed_append (negative : Bool) (s t : List Char) :
    signed negative s ++ t = signed negative (s ++ t) := by
  cases negative <;> rfl

theorem reads_digits : Reads digits fun s run => s = run ∧ Digits run := by
  intro s run rest h
  unfold digits at h
  dsimp only at h
  split at h
  · cases h
  · rename_i full
    cases h
    refine ⟨_, List.takeWhile_append_dropWhile.symm, rfl, fun empty => ?_, fun _ hc =>
      List.mem_takeWhile_imp hc⟩
    simp [empty] at full

theorem reads_double : Reads double fun s x => LiteralText s (.double x) := by
  intro s x rest h
  have sign := signed_splitSign s
  unfold double at h
  generalize Decimal.splitSign s = parts at h sign
  obtain ⟨negative, u⟩ := parts
  dsimp only at h sign
  obtain ⟨⟨whole, s₁⟩, found, h⟩ := bind_eq_ok_iff.1 h
  obtain ⟨s₂, point, h⟩ := bind_eq_ok_iff.1 h
  obtain ⟨⟨fraction, s₃⟩, found', h⟩ := bind_eq_ok_iff.1 h
  cases h
  obtain ⟨_, rfl, rfl, hw⟩ := reads_digits _ _ _ found
  obtain ⟨_, rfl, rfl, hf⟩ := reads_digits _ _ _ found'
  obtain rfl := char_eq_ok_iff.1 point
  refine ⟨_, ?_, .double negative hw hf⟩
  rw [signed_append, ← sign, List.append_assoc, List.cons_append]

/-- A number fits into 64 bits if it is the value of a word. -/
theorem toInt_of_int64? {n : Int} {word : Int64} (h : int64? n = some word) : word.toInt = n := by
  unfold int64? at h
  split at h
  · rename_i fits
    cases h
    exact Int64.toInt_ofInt_of_le fits.1 (by
      have := fits.2
      simp only [Int64.toInt_maxValue] at this
      omega)
  · cases h

theorem reads_integer : Reads integer fun s n => LiteralText s (.integer n) := by
  intro s n rest h
  have sign := signed_splitSign s
  unfold integer at h
  generalize Decimal.splitSign s = parts at h sign
  obtain ⟨negative, u⟩ := parts
  dsimp only at h sign
  obtain ⟨⟨run, left⟩, found, h⟩ := bind_eq_ok_iff.1 h
  dsimp only at h
  split at h
  · rename_i word fits
    cases h
    obtain ⟨_, rfl, rfl, hd⟩ := reads_digits _ _ _ found
    exact ⟨_, by rw [signed_append, sign], .integer negative hd (toInt_of_int64? fits)⟩
  · cases h

theorem mem_escapes_of_unescape? {e c : Char} (h : unescape? e = some c) : (e, c) ∈ escapes := by
  unfold unescape? at h
  simp only [escapes, List.mem_cons, Prod.mk.injEq, List.not_mem_nil, or_false]
  split at h
  · cases h
    simp_all
  split at h
  · cases h
    simp_all
  split at h
  · cases h
    simp_all
  split at h
  · cases h
    simp_all
  · cases h

/-- The content ends at the first quote that is not escaped. -/
theorem exists_of_content {s read rest : List Char} (h : content s = some (read, rest)) :
    ∃ written, s = written ++ rest ∧ Quoted written read := by
  induction s using content.induct generalizing read with
  | case1 =>
    rw [content] at h
    cases h
    exact ⟨[], rfl, .nil⟩
  | case2 s =>
    rw [content] at h
    cases h
    exact ⟨[], rfl, .nil⟩
  | case3 => cases h
  | case4 e s ih =>
    rw [content] at h
    obtain ⟨c, escape, h⟩ := Option.bind_eq_some_iff.1 h
    obtain ⟨⟨inner, left⟩, found, h⟩ := Option.bind_eq_some_iff.1 h
    cases h
    obtain ⟨written, rfl, quoted⟩ := ih found
    exact ⟨'\\' :: e :: written, rfl, .escaped (mem_escapes_of_unescape? escape) quoted⟩
  | case5 c s quote last backslash ih =>
    rw [content] at h
    · have plain : c ≠ '\\' := by
        rintro rfl
        cases s <;> simp_all
      obtain ⟨⟨inner, left⟩, found, h⟩ := Option.bind_eq_some_iff.1 h
      cases h
      obtain ⟨written, rfl, quoted⟩ := ih found
      exact ⟨c :: written, rfl, .plain quote plain quoted⟩
    all_goals simp_all

theorem exists_of_content_getD (s : List Char) :
    ∃ written, s = written ++ ((content s).getD ([], s)).2 ∧
      Quoted written ((content s).getD ([], s)).1 := by
  cases found : content s with
  | none => exact ⟨[], rfl, .nil⟩
  | some read => exact exists_of_content found

theorem reads_quoted : Reads quoted fun s t => LiteralText s (.string t) := by
  refine Reads.within ?_ "string literal"
  intro s t rest whole
  obtain ⟨s₁, opened, further⟩ := bind_eq_ok_iff.1 whole
  obtain rfl := char_eq_ok_iff.1 opened
  obtain ⟨written, split, quoted⟩ := exists_of_content_getD s₁
  generalize (content s₁).getD ([], s₁) = found at further split quoted
  obtain ⟨read, s₂⟩ := found
  obtain ⟨s₃, closed, answer⟩ := bind_eq_ok_iff.1 further
  cases answer
  rw [char_eq_ok_iff.1 closed] at split
  refine ⟨'"' :: (written ++ ['"']), ?_, .string quoted⟩
  rw [split]
  simp

theorem reads_truth (value : Bool) :
    Reads (truth (if value then "true" else "false") value) fun s b =>
      LiteralText s (.boolean b) := by
  intro s b rest h
  unfold truth at h
  split at h
  · rename_i left found
    have hs := (word_eq_some_iff _ _ _).1 found
    split at h
    · cases h
    · cases h
      exact ⟨_, hs, .boolean value⟩
  · cases h

theorem reads_literal : Reads literal LiteralText := by
  have doubles := reads_double.map Literal.double fun _ _ written => written
  have integers := reads_integer.map Literal.integer fun _ _ written => written
  have texts := reads_quoted.map Literal.string fun _ _ written => written
  have truths value := (reads_truth value).map Literal.boolean fun _ _ written => written
  exact ((doubles.either <| integers.either <| texts.either <|
    (truths true).either (truths false)).within "Alt").within "literal"

/-! ## Lists -/

section Lists

variable {α : Type} {rule : Rule α} {phrase : List Char → α → Prop}

/-- By induction on the bound: what was read so far is an item, and so is what follows a comma. -/
theorem exists_of_moreItems (h : Reads rule phrase) {bound s rest first : List Char} {x : α}
    {xs : List α} (hm : moreItems (silent rule) bound s = (xs, rest)) (hx : phrase first x) :
    ∃ read, s = read ++ rest ∧ Separated phrase (first ++ read) (x :: xs) := by
  induction bound generalizing s xs first x with
  | nil =>
    rw [moreItems] at hm
    cases hm
    exact ⟨[], rfl, by simpa using Separated.one hx⟩
  | cons _ bound ih =>
    rw [moreItems] at hm
    split at hm
    · cases hm
      exact ⟨[], rfl, by simpa using Separated.one hx⟩
    · rename_i y left found
      cases hm
      obtain ⟨after, comma, item⟩ := Option.bind_eq_some_iff.1 found
      obtain ⟨t, rfl, ht⟩ := exists_of_token comma
      obtain ⟨second, rfl, hy⟩ := h _ _ _ (silent_eq_some_iff.1 item)
      obtain ⟨read, hread, separated⟩ := ih rfl hy
      refine ⟨t ++ second ++ read, ?_, ?_⟩
      · simp only [List.append_assoc, ← hread]
      · simpa only [List.append_assoc] using Separated.more hx ht separated

theorem exists_of_items (h : Reads rule phrase) {s rest : List Char} {xs : List α}
    (hi : items (silent rule) s = (xs, rest)) : ∃ read, s = read ++ rest ∧ Separated phrase read xs := by
  unfold items at hi
  split at hi
  · cases hi
    exact ⟨[], rfl, .nil⟩
  · rename_i x left found
    cases hi
    obtain ⟨first, rfl, hx⟩ := h _ _ _ (silent_eq_some_iff.1 found)
    obtain ⟨read, hread, separated⟩ := exists_of_moreItems h rfl hx
    exact ⟨first ++ read, by rw [List.append_assoc, ← hread], separated⟩

end Lists

/-! ## Expressions -/

section Expressions

variable {inner : Rule Expr}

theorem reads_parenthesized (h : Reads inner ExprText) :
    Reads (parenthesized inner) PrimaryText := by
  intro s e rest hs
  unfold parenthesized at hs
  obtain ⟨s₁, opened, hs⟩ := bind_eq_ok_iff.1 hs
  obtain ⟨⟨e', s₂⟩, found, hs⟩ := bind_eq_ok_iff.1 hs
  obtain ⟨s₃, closed, hs⟩ := bind_eq_ok_iff.1 hs
  cases hs
  obtain ⟨t, rfl, bracket⟩ := exists_of_mark opened
  obtain ⟨u, rfl, written⟩ := h _ _ _ found
  obtain ⟨v, rfl, close⟩ := exists_of_mark closed
  exact ⟨t ++ u ++ v, by simp only [List.append_assoc], .parenthesized bracket written close⟩

/-- An optional comma is a comma or nothing. -/
theorem exists_of_token_getD (s : List Char) :
    ∃ read, s = read ++ (token ',' s).getD s ∧ (read = [] ∨ Token [','] read) := by
  cases found : token ',' s with
  | none => exact ⟨[], rfl, .inl rfl⟩
  | some rest =>
    obtain ⟨read, hs, comma⟩ := exists_of_token found
    exact ⟨read, hs, .inr comma⟩

theorem reads_array (h : Reads inner ExprText) : Reads (array inner) PrimaryText := by
  refine Reads.within ?_ "array"
  intro s e rest hs
  obtain ⟨s₁, opened, hs⟩ := bind_eq_ok_iff.1 hs
  generalize listed : items (silent inner) s₁ = found at hs
  obtain ⟨es, s₂⟩ := found
  obtain ⟨s₃, closed, hs⟩ := bind_eq_ok_iff.1 hs
  cases hs
  obtain ⟨t, rfl, bracket⟩ := exists_of_mark opened
  obtain ⟨u, rfl, separated⟩ := exists_of_items h listed
  obtain ⟨v, hv, comma⟩ := exists_of_token_getD s₂
  obtain ⟨w, hw, close⟩ := exists_of_mark closed
  refine ⟨t ++ u ++ v ++ w, ?_, .array bracket separated comma close⟩
  rw [hw] at hv
  simp only [List.append_assoc, ← hv]

theorem reads_implicitMember : Reads implicitMember PrimaryText := by
  intro s e rest hs
  obtain ⟨left, point, hs⟩ := bind_eq_ok_iff.1 hs
  obtain rfl := char_eq_ok_iff.1 point
  have names := reads_identifier.map Expr.implicitMember fun read e' named => show
    PrimaryText ('.' :: read) _ from named.1 ▸ .implicitMember named.2 (token_self _)
  obtain ⟨read, rfl, written⟩ := names _ _ _ hs
  exact ⟨'.' :: read, rfl, written⟩

theorem reads_primary (h : Reads inner ExprText) : Reads (primary inner) ExprText := by
  have alternatives := (reads_literal.map Expr.literal fun _ _ written =>
    PrimaryText.literal written (token_self _)).either <| (reads_array h).either <|
      (reads_parenthesized h).either <| reads_implicitMember.either <|
        reads_identifier.map Expr.name fun _ _ read => read.1 ▸ .name read.2 (token_self _)
  intro s e rest hs
  obtain ⟨before, hbefore, hbs⟩ := exists_blanks_skipBlanks s
  obtain ⟨⟨e', left⟩, found, hs⟩ := bind_eq_ok_iff.1 hs
  cases hs
  obtain ⟨read, hread, written⟩ := alternatives.within "Alt" _ _ _ found
  obtain ⟨after, hafter, hleft⟩ := exists_blanks_skipBlanks left
  refine ⟨before ++ read ++ after, ?_, (ExprText.primary written).pad hbefore hafter⟩
  rw [hbs, hread]
  simp only [List.append_assoc, ← hleft]

theorem reads_labeledArgument (h : Reads inner ExprText) :
    Reads (labeledArgument inner) ArgumentText := by
  intro s a rest hs
  unfold labeledArgument at hs
  obtain ⟨⟨label, s₁⟩, named, hs⟩ := bind_eq_ok_iff.1 hs
  obtain ⟨s₂, marked, found⟩ := bind_eq_ok_iff.1 hs
  obtain ⟨before, hbefore, hbs⟩ := exists_blanks_skipBlanks s
  obtain ⟨read, hread, rfl, isName⟩ := reads_identifier _ _ _ named
  obtain ⟨t, rfl, colon⟩ := exists_of_mark marked
  have padded : Token label.toList (before ++ label.toList) := by
    simpa using (token_self label.toList).pad hbefore blanks_nil
  have values : Reads (inner.map (Argument.mk (some label))) fun u a =>
      ArgumentText (before ++ label.toList ++ t ++ u) a :=
    h.map (Argument.mk (some label)) fun _ _ => .labeled isName padded colon
  obtain ⟨u, rfl, written⟩ := values _ _ _ found
  refine ⟨before ++ label.toList ++ t ++ u, ?_, written⟩
  rw [hbs, hread]
  simp only [List.append_assoc]

theorem reads_argument (h : Reads inner ExprText) : Reads (argument inner) ArgumentText :=
  ((reads_labeledArgument h).either (h.map (Argument.mk none) fun _ _ => .positional)).within "Alt"

theorem reads_argumentList (h : Reads inner ExprText) :
    Reads (argumentList inner) fun read arguments => ∃ t u v, read = t ++ u ++ v ∧
      Token ['('] t ∧ Separated ArgumentText u arguments ∧ Token [')'] v := by
  refine Reads.within ?_ "arguments"
  intro s arguments rest hs
  obtain ⟨s₁, opened, hs⟩ := bind_eq_ok_iff.1 hs
  generalize listed : items (silent (argument inner)) s₁ = list at hs
  obtain ⟨as, s₂⟩ := list
  obtain ⟨s₃, closed, hs⟩ := bind_eq_ok_iff.1 hs
  cases hs
  obtain ⟨t, rfl, bracket⟩ := exists_of_mark opened
  obtain ⟨u, rfl, separated⟩ := exists_of_items (reads_argument h) listed
  obtain ⟨v, rfl, close⟩ := exists_of_mark closed
  exact ⟨t ++ u ++ v, by simp only [List.append_assoc], t, u, v, rfl, bracket, separated, close⟩

/-- The text is not empty, and behind a written form of the expression it makes one of the longer
expression. -/
def Lengthens (e : Expr) (text : List Char) (longer : Expr) : Prop :=
  text ≠ [] ∧ ∀ first, ExprText first e → ExprText (first ++ text) longer

theorem reads_memberName (e : Expr) : Reads (memberName e) (Lengthens e) := by
  intro s longer rest hs
  unfold memberName at hs
  obtain ⟨s₁, parted, found⟩ := bind_eq_ok_iff.1 hs
  obtain ⟨t, rfl, point⟩ := exists_of_mark parted
  have names : Reads (identifier.map (Expr.member e)) fun u longer =>
      Lengthens e (t ++ u) longer := by
    refine reads_identifier.map (Expr.member e) ?_
    rintro _ n ⟨rfl, isName⟩
    refine ⟨List.append_ne_nil_of_left_ne_nil (point.ne_nil (by simp)) _, fun first he => ?_⟩
    simpa only [List.append_assoc] using ExprText.member he point isName (token_self _)
  obtain ⟨u, rfl, written⟩ := names _ _ _ found
  exact ⟨t ++ u, by rw [List.append_assoc], written⟩

theorem reads_suffix (h : Reads inner ExprText) (e : Expr) :
    Reads (suffix inner e) (Lengthens e) := by
  refine ((reads_argumentList h).map (Expr.call e) ?_).either (reads_memberName e)
  rintro _ arguments ⟨t, u, v, rfl, bracket, separated, close⟩
  simp only [List.append_assoc]
  refine ⟨List.append_ne_nil_of_left_ne_nil (bracket.ne_nil (by simp)) _, fun first he => ?_⟩
  simpa only [List.append_assoc] using ExprText.call he bracket separated close

theorem exists_of_suffixes (h : Reads inner ExprText) {bound : List Char} {e e' : Expr}
    {s rest first : List Char} (hs : suffixes inner bound e s = (e', rest))
    (he : ExprText first e) : ∃ read, s = read ++ rest ∧ ExprText (first ++ read) e' := by
  induction bound generalizing e s first with
  | nil =>
    rw [suffixes] at hs
    cases hs
    exact ⟨[], rfl, by simpa using he⟩
  | cons _ bound ih =>
    rw [suffixes] at hs
    split at hs
    · cases hs
      exact ⟨[], rfl, by simpa using he⟩
    · rename_i next left found
      obtain ⟨t, rfl, -, longer⟩ := reads_suffix h e _ _ _ found
      obtain ⟨u, rfl, longest⟩ := ih hs (longer first he)
      exact ⟨t ++ u, by simp only [List.append_assoc], by simpa only [List.append_assoc] using longest⟩

theorem reads_postfixed (h : Reads inner ExprText) : Reads (postfixed inner) ExprText := by
  intro s e rest hs
  unfold postfixed at hs
  obtain ⟨⟨e', left⟩, found, further⟩ := bind_eq_ok_iff.1 hs
  obtain ⟨first, hfirst, he⟩ := reads_primary h _ _ _ found
  obtain ⟨read, hread, written⟩ := exists_of_suffixes h (Except.ok.inj further) he
  exact ⟨first ++ read, by rw [List.append_assoc, ← hread, ← hfirst], written⟩

theorem reads_expressionOver (h : Reads inner ExprText) : Reads (expressionOver inner) ExprText :=
  (reads_postfixed h).within "expression"

/-- By induction on the depth, which is all that the rule recurses on. -/
theorem reads_nested (depth : List Char) : Reads (nested depth) ExprText := by
  induction depth with
  | nil =>
    intro s e rest hs
    cases hs
  | cons _ depth ih => exact reads_expressionOver ih

end Expressions

theorem reads_expression : Reads expression ExprText :=
  fun s => reads_expressionOver (reads_nested s) s

theorem reads_leadingExpression : Reads leadingExpression ExprText := by
  intro s e rest hs
  unfold leadingExpression at hs
  obtain ⟨⟨e', left⟩, found, hs⟩ := bind_eq_ok_iff.1 hs
  cases hs
  obtain ⟨before, hbefore, hbs⟩ := exists_blanks_skipBlanks s
  obtain ⟨read, hread, written⟩ := reads_expression _ _ _ found
  obtain ⟨after, hafter, hleft⟩ := exists_blanks_skipBlanks left
  refine ⟨before ++ read ++ after, ?_, written.pad hbefore hafter⟩
  rw [hbs, hread]
  simp only [List.append_assoc, ← hleft]

end Fluent.Reader

namespace Fluent.Expr

/-- A text that is read as an expression is a written form of it. -/
theorem exprText_of_parse {s : String} {e : Expr} (h : parse s = .ok e) :
    Grammar.ExprText s.toList e := by
  rw [parse_eq_parseChars, parseChars] at h
  cases answer : Reader.leadingExpression s.toList with
  | error trace =>
    rw [answer] at h
    cases h
  | ok found =>
    obtain ⟨e', rest⟩ := found
    rw [answer] at h
    cases rest with
    | cons c rest => cases h
    | nil =>
      cases h
      obtain ⟨read, hs, written⟩ := Reader.reads_leadingExpression _ _ _ answer
      rw [hs, List.append_nil]
      exact written

end Fluent.Expr

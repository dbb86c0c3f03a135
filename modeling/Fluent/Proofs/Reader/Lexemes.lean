import Fluent.Proofs.Reader.Soundness

/-!
# Tokens are read where they are written

A name, a literal or a mark is read up to its end if the text after it does not go on with it, and
the rules that would be tried before do not read it.

Main statements: `token_append`, `identifier_append`, `literal_append`; `literal_name`, the two truth
values are words apart from the names.
-/
namespace Fluent.Reader

open Grammar

/-- The text does not go on with a name or a number in front of it. -/
structure Detached (rest : List Char) : Prop where
  name : ∀ c ∈ rest.head?, continuesName c = false
  point : ∀ c s, rest = '.' :: c :: s → c.isDigit = false

/-- Nothing follows but blanks, or a character that neither begins a suffix nor is part of one. -/
def Ends (rest : List Char) : Prop :=
  ∀ c s, skipBlanks rest = c :: s → c ∈ [')', ']', ',']

/-! ## Blanks and tokens -/

theorem skipBlanks_append {blanks : List Char} (h : Blanks blanks) (s : List Char) :
    skipBlanks (blanks ++ s) = skipBlanks s :=
  List.dropWhile_append_of_pos fun c hc => (isBlank_iff c).2 (h c hc)

theorem length_skipBlanks_le (s : List Char) : (skipBlanks s).length ≤ s.length :=
  (List.dropWhile_sublist _).length_le

theorem length_skipBlanks_append (s t : List Char) :
    (skipBlanks t).length ≤ (skipBlanks (s ++ t)).length := by
  induction s with
  | nil => exact Nat.le_refl _
  | cons c s ih =>
    by_cases blank : isBlank c = true
    · simpa [skipBlanks, blank] using ih
    · have short := length_skipBlanks_le t
      rw [List.cons_append, skipBlanks_cons_of_not_isBlank _ _ (by simpa using blank)]
      simp only [List.length_cons, List.length_append]
      omega

theorem token_congr {s t : List Char} (h : skipBlanks s = skipBlanks t) (c : Char) :
    token c s = token c t := by
  unfold token
  rw [h]

theorem token_skipBlanks (c : Char) (s : List Char) : token c (skipBlanks s) = token c s :=
  token_congr (skipBlanks_skipBlanks s) c

theorem exists_of_token_eq_some {c : Char} {s rest : List Char} (h : token c s = some rest) :
    ∃ u, skipBlanks s = c :: u := by
  unfold token at h
  split at h
  · cases h
  · rename_i d u found
    split at h
    · rename_i same
      exact ⟨u, by rw [found, same]⟩
    · cases h

theorem token_eq_none {s tail : List Char} {c d : Char} (h : skipBlanks s = d :: tail)
    (other : d ≠ c) : token c s = none := by
  unfold token
  rw [h]
  exact if_neg other

/-- The blanks in front of a token are skipped, and those behind it are left. -/
theorem exists_of_tokenText {t s : List Char} (h : Token t s)
    (first : ∃ c u, t = c :: u ∧ isBlank c = false) :
    ∃ after, Blanks after ∧ ∀ rest, skipBlanks (s ++ rest) = t ++ (after ++ rest) := by
  obtain ⟨before, after, hbefore, hafter, rfl⟩ := h
  obtain ⟨c, u, rfl, notBlank⟩ := first
  refine ⟨after, hafter, fun rest => ?_⟩
  simp only [List.append_assoc, skipBlanks_append hbefore, List.cons_append,
    skipBlanks_cons_of_not_isBlank _ _ notBlank]

theorem skipBlanks_token {c : Char} {t : List Char} (h : Token [c] t) (notBlank : isBlank c = false)
    (rest : List Char) : ∃ s, skipBlanks (t ++ rest) = c :: s ∧ skipBlanks s = skipBlanks rest ∧
      rest.length ≤ s.length := by
  obtain ⟨after, hafter, skipped⟩ := exists_of_tokenText h ⟨c, [], rfl, notBlank⟩
  refine ⟨after ++ rest, skipped rest, skipBlanks_append hafter rest, ?_⟩
  simp

theorem token_append {c : Char} {t : List Char} (h : Token [c] t) (notBlank : isBlank c = false)
    (rest : List Char) : token c (t ++ rest) = some (skipBlanks rest) := by
  obtain ⟨s, skipped, hs, -⟩ := skipBlanks_token h notBlank rest
  unfold token
  simp [skipped, hs]

/-! ## What may follow -/

theorem not_continuesName_of_isBlank {c : Char} (h : isBlank c = true) :
    continuesName c = false ∧ c ≠ '.' := by
  have blank := (isBlank_iff c).1 h
  simp only [List.mem_cons, List.not_mem_nil, or_false] at blank
  obtain rfl | rfl | rfl | rfl := blank <;> decide

/-- Nothing is detached, and so is whatever begins with a blank or a bracket, a comma or a
colon. -/
theorem detached_of_skipBlanks {rest : List Char}
    (h : ∀ c s, skipBlanks rest = c :: s → c ∈ ['(', ')', ']', ',', ':']) : Detached rest := by
  cases rest with
  | nil => exact ⟨by simp, by simp⟩
  | cons c s =>
    have first : continuesName c = false ∧ c ≠ '.' := by
      by_cases blank : isBlank c = true
      · exact not_continuesName_of_isBlank blank
      · have mark := h c s (skipBlanks_cons_of_not_isBlank c s (by simpa using blank))
        simp only [List.mem_cons, List.not_mem_nil, or_false] at mark
        obtain rfl | rfl | rfl | rfl | rfl := mark <;> decide
    refine ⟨by simpa using first.1, fun d u same => ?_⟩
    cases same
    exact absurd rfl first.2

theorem Ends.detached {rest : List Char} (h : Ends rest) : Detached rest := by
  refine detached_of_skipBlanks fun c s skipped => ?_
  have mark := h c s skipped
  simp only [List.mem_cons, List.not_mem_nil, or_false] at mark ⊢
  obtain rfl | rfl | rfl := mark <;> simp

theorem ends_nil : Ends [] := by
  intro c s h
  cases h

theorem ends_of_token {c : Char} {t : List Char} (h : Token [c] t) (mark : c ∈ [')', ']', ','])
    (rest : List Char) : Ends (t ++ rest) := by
  have notBlank : isBlank c = false := by
    simp only [List.mem_cons, List.not_mem_nil, or_false] at mark
    obtain rfl | rfl | rfl := mark <;> decide
  obtain ⟨s, skipped, -⟩ := skipBlanks_token h notBlank rest
  intro d u same
  rw [skipped] at same
  cases same
  exact mark

theorem Detached.blanks {after rest : List Char} (h : Detached rest) (hafter : Blanks after) :
    Detached (after ++ rest) := by
  cases after with
  | nil => exact h
  | cons c s =>
    have blank := (isBlank_iff c).2 (hafter c List.mem_cons_self)
    obtain ⟨notName, notPoint⟩ := not_continuesName_of_isBlank blank
    refine ⟨by simpa using notName, fun d u same => ?_⟩
    exact absurd (List.cons.inj same).1 notPoint

/-! ## Characters -/

theorem toNat_of_isDigit {c : Char} (h : c.isDigit = true) : 48 ≤ c.toNat ∧ c.toNat ≤ 57 := by
  simp only [Char.isDigit, Bool.and_eq_true, decide_eq_true_eq, ge_iff_le,
    UInt32.le_iff_toNat_le] at h
  exact h

theorem continuesName_of_isDigit {c : Char} (h : c.isDigit = true) : continuesName c = true := by
  have ascii : c.toNat < 0x80 := by
    have := toNat_of_isDigit h
    omega
  simp [continuesName, Text.isAlphanumeric, Text.isNumeric, ascii, h]

theorem continuesName_of_beginsName {c : Char} (h : beginsName c = true) :
    continuesName c = true := by
  rw [continuesName_iff]
  obtain alphabetic | underscore := (beginsName_iff c).1 h
  · exact .inl (Text.isAlphanumeric_of_isAlphabetic c alphabetic)
  · exact .inr underscore

/-- A character that begins a name begins no number. -/
theorem not_isDigit_of_beginsName {c : Char} (h : beginsName c = true) : c.isDigit = false := by
  have noName : ∀ n < 58, 48 ≤ n → beginsName (Char.ofNat n) = false := by decide
  by_contra digit
  rw [Bool.not_eq_false] at digit
  obtain ⟨least, most⟩ := toNat_of_isDigit digit
  have contrary := noName c.toNat (by omega) least
  rw [Char.ofNat_toNat, h] at contrary
  cases contrary

/-- The characters that begin anything but a name. -/
theorem ne_of_beginsName {c : Char} (h : beginsName c = true) :
    isBlank c = false ∧ c ∉ ['-', '"', '[', '(', '.'] := by
  constructor
  · by_contra blank
    rw [Bool.not_eq_false] at blank
    have notName := (not_continuesName_of_isBlank blank).1
    rw [continuesName_of_beginsName h] at notName
    cases notName
  · intro mark
    simp only [List.mem_cons, List.not_mem_nil, or_false] at mark
    obtain rfl | rfl | rfl | rfl | rfl := mark <;> exact absurd h (by decide)

/-! ## Names and literals -/

/-- A run of characters is taken up to the first that is not one of them. -/
theorem span_append {p : Char → Bool} {s rest : List Char} (hs : ∀ c ∈ s, p c = true)
    (hrest : ∀ c ∈ rest.head?, p c = false) :
    (s ++ rest).takeWhile p = s ∧ (s ++ rest).dropWhile p = rest := by
  rw [List.takeWhile_append_of_pos hs, List.dropWhile_append_of_pos hs]
  cases rest with
  | nil => simp
  | cons c u => simp [hrest c rfl]

theorem IsName.exists_cons {n : String} (h : IsName n) :
    ∃ c s, n.toList = c :: s ∧ beginsName c = true ∧ ∀ d ∈ s, continuesName d = true := by
  obtain ⟨⟨c, s, hn, begins, continues⟩, -⟩ := h
  exact ⟨c, s, hn, (beginsName_iff c).2 begins, fun d hd => (continuesName_iff d).2 (continues d hd)⟩

/-- The longest run of name characters ends where none follows. -/
theorem not_continuesName_of_run {s rest : List Char} {name : String}
    (h : run s = .ok (name, rest)) : ∀ c ∈ rest.head?, continuesName c = false := by
  cases s with
  | nil => cases h
  | cons c s =>
    rw [run] at h
    split at h
    · cases h
      intro d hd
      have stopped := List.head?_dropWhile_not continuesName s
      rw [Option.mem_def.1 hd] at stopped
      simpa using stopped
    · cases h

theorem identifier_append {n : String} (h : IsName n) {rest : List Char}
    (hrest : ∀ c ∈ rest.head?, continuesName c = false) :
    silent identifier (n.toList ++ rest) = some (n, rest) := by
  obtain ⟨c, s, hn, begins, continues⟩ := IsName.exists_cons h
  obtain ⟨whole, left⟩ := span_append continues hrest
  have written : String.ofList (c :: s) = n := by rw [← hn, String.ofList_toList]
  have notReserved : reserved.contains n = false := by
    simp [reserved, h.2.1, h.2.2]
  have found : silent run (n.toList ++ rest) = some (n, rest) := by
    rw [hn, List.cons_append, silent_run_cons, if_pos begins, whole, left, written]
  rw [silent_identifier, found, Option.bind_some, notReserved]
  rfl

theorem silent_identifier_cons {c : Char} (begins : beginsName c = false) (s : List Char) :
    silent identifier (c :: s) = none := by
  simp [silent_identifier, silent_run_cons, begins]

theorem splitSign_of_ne {c : Char} (sign : c ≠ '-') (s : List Char) :
    Decimal.splitSign (c :: s) = (false, c :: s) := by
  simp [Decimal.splitSign, sign]

theorem splitSign_signed (negative : Bool) {digits : List Char} (hd : Digits digits)
    (rest : List Char) :
    Decimal.splitSign (signed negative digits ++ rest) = (negative, digits ++ rest) := by
  cases negative with
  | true => rfl
  | false =>
    obtain ⟨nonempty, all⟩ := hd
    obtain ⟨c, s, rfl⟩ := List.exists_cons_of_ne_nil nonempty
    have digit := all c List.mem_cons_self
    have noSign : c ≠ '-' := by
      rintro rfl
      exact absurd digit (by decide)
    exact splitSign_of_ne noSign (s ++ rest)

theorem Detached.digit {rest : List Char} (h : Detached rest) :
    ∀ c ∈ rest.head?, c.isDigit = false := by
  intro c hc
  by_contra digit
  rw [Bool.not_eq_false] at digit
  have notName := h.name c hc
  rw [continuesName_of_isDigit digit] at notName
  cases notName

theorem digits_append {run rest : List Char} (h : Digits run)
    (hrest : ∀ c ∈ rest.head?, c.isDigit = false) : digits (run ++ rest) = .ok (run, rest) := by
  obtain ⟨whole, left⟩ := span_append h.2 hrest
  simp [digits, whole, left, h.1]

theorem digits_eq_miss {s : List Char} (h : ∀ c ∈ s.head?, c.isDigit = false) :
    digits s = miss (.rule "Digit") s := by
  cases s with
  | nil => rfl
  | cons c s => simp [digits, h c rfl]

theorem double_append (negative : Bool) {whole fraction rest : List Char} (hw : Digits whole)
    (hf : Digits fraction) (hrest : Detached rest) :
    silent double (signed negative (whole ++ '.' :: fraction) ++ rest) =
      some (Decimal.fixedPoint negative whole fraction, rest) := by
  have sign := splitSign_signed negative hw ('.' :: (fraction ++ rest))
  have point : ∀ c ∈ ('.' :: (fraction ++ rest)).head?, c.isDigit = false := by simp
  rw [signed_append, List.append_assoc, List.cons_append, ← signed_append]
  simp [silent, double, sign, digits_append hw point, char, digits_append hf hrest.digit]

/-- Digits are no double unless a point and digits follow. -/
theorem double_digits (negative : Bool) {run rest : List Char} (hd : Digits run)
    (hrest : Detached rest) : silent double (signed negative run ++ rest) = none := by
  simp only [silent, double, splitSign_signed negative hd, digits_append hd hrest.digit, ok_bind]
  cases rest with
  | nil => rfl
  | cons c s =>
    by_cases point : c = '.'
    · subst point
      have noDigit : ∀ d ∈ s.head?, d.isDigit = false := by
        cases s with
        | nil => simp
        | cons d u => simpa using hrest.point d u rfl
      simp only [char, if_true, ok_bind, digits_eq_miss noDigit, miss_bind, result?_miss]
    · simp [char, point]

theorem int64?_toInt (word : Int64) : int64? word.toInt = some word := by
  have lower := word.minValue_le_toInt
  have upper := word.toInt_le
  simp only [int64?, lower, upper, and_self, if_true, Int64.ofInt_toInt]

theorem integer_append (negative : Bool) {run rest : List Char} (hd : Digits run)
    (hrest : Detached rest) {n : Int64}
    (value : n.toInt =
      if negative then -(Decimal.digitsValue run : Int) else Decimal.digitsValue run) :
    silent integer (signed negative run ++ rest) = some (n, rest) := by
  simp [silent, integer, splitSign_signed negative hd, digits_append hd hrest.digit, ← value,
    int64?_toInt]

theorem unescape?_of_mem_escapes {e c : Char} (h : (e, c) ∈ escapes) : unescape? e = some c := by
  simp only [escapes, List.mem_cons, Prod.mk.injEq, List.not_mem_nil, or_false] at h
  obtain ⟨rfl, rfl⟩ | ⟨rfl, rfl⟩ | ⟨rfl, rfl⟩ | ⟨rfl, rfl⟩ := h <;> rfl

theorem content_append {s read : List Char} (h : Quoted s read) (rest : List Char) :
    content (s ++ '"' :: rest) = some (read, '"' :: rest) := by
  induction h with
  | nil => rfl
  | plain quote backslash _ ih => simp [content, backslash, ih]
  | escaped escape _ ih => simp [content, unescape?_of_mem_escapes escape, ih]

theorem quoted_append {s read : List Char} (h : Quoted s read) (rest : List Char) :
    silent quoted ('"' :: (s ++ '"' :: rest)) = some (String.ofList read, rest) := by
  rw [quoted, silent_within]
  simp [silent, char, content_append h rest]

theorem quoted_eq_none {c : Char} (quote : c ≠ '"') (s : List Char) :
    silent quoted (c :: s) = none := by
  rw [quoted, silent_within]
  simp [silent, char, quote]

theorem numbers_eq_none {c : Char} (sign : c ≠ '-') (digit : c.isDigit = false) (s : List Char) :
    silent double (c :: s) = none ∧ silent integer (c :: s) = none := by
  have noDigit : digits (c :: s) = miss (.rule "Digit") (c :: s) :=
    digits_eq_miss fun _ first => Option.some.inj first ▸ digit
  simp [silent, double, integer, splitSign_of_ne sign, noDigit]

theorem truth_append (value : Bool) {rest : List Char}
    (hrest : ∀ c ∈ rest.head?, continuesName c = false) :
    silent (truth (if value then "true" else "false") value)
        ((if value then "true" else "false").toList ++ rest) = some (value, rest) := by
  have found := (word_eq_some_iff _ _ rest).2
    (rfl : (if value then "true" else "false").toList ++ rest = _)
  rw [silent_truth, found]
  cases rest with
  | nil => rfl
  | cons c s => simp [hrest c rfl]

theorem truth_eq_none {c d : Char} {name : String} {letters : List Char}
    (first : name.toList = d :: letters) (other : c ≠ d) (value : Bool) (s : List Char) :
    silent (truth name value) (c :: s) = none := by
  rw [silent_truth, first, word, if_neg other, Option.bind_none]

/-- Where neither a number nor a quoted text begins, a literal is one of the two words. -/
theorem literal_cons {c : Char} (sign : c ≠ '-') (digit : c.isDigit = false) (quote : c ≠ '"')
    (s : List Char) :
    silent literal (c :: s) =
      ((silent (truth "true" true) (c :: s)).map (fun found => (.boolean found.1, found.2))
        <|> (silent (truth "false" false) (c :: s)).map fun found => (.boolean found.1, found.2)) := by
  obtain ⟨noDouble, noInteger⟩ := numbers_eq_none sign digit s
  rw [silent_literal, noDouble, noInteger, quoted_eq_none quote]
  rfl

theorem literal_append {t rest : List Char} {l : Literal} (h : LiteralText t l)
    (hrest : Detached rest) : silent literal (t ++ rest) = some (l, rest) := by
  cases h with
  | double negative hw hf => simp [silent_literal, double_append negative hw hf hrest]
  | integer negative hd value =>
    simp [silent_literal, double_digits negative hd hrest, integer_append negative hd hrest value]
  | string written =>
    have noNumber := numbers_eq_none (by decide : '"' ≠ '-') (by decide)
    simp [silent_literal, noNumber, quoted_append written]
  | boolean value =>
    cases value with
    | true =>
      have found : silent (truth "true" true) ('t' :: 'r' :: 'u' :: 'e' :: rest) =
          some (true, rest) := truth_append true hrest.name
      have words := literal_cons (by decide : 't' ≠ '-') (by decide) (by decide)
        ('r' :: 'u' :: 'e' :: rest)
      rw [found] at words
      exact words
    | false =>
      have found : silent (truth "false" false) ('f' :: 'a' :: 'l' :: 's' :: 'e' :: rest) =
          some (false, rest) := truth_append false hrest.name
      have words := literal_cons (by decide : 'f' ≠ '-') (by decide) (by decide)
        ('a' :: 'l' :: 's' :: 'e' :: rest)
      rw [found, truth_eq_none rfl (by decide : 'f' ≠ 't')] at words
      exact words

theorem LiteralText.exists_cons {t : List Char} {l : Literal} (h : LiteralText t l) :
    ∃ c u, t = c :: u ∧ isBlank c = false := by
  have number (negative : Bool) {digits : List Char} (hd : Digits digits) (s : List Char) :
      ∃ c u, signed negative (digits ++ s) = c :: u ∧ isBlank c = false := by
    obtain ⟨c, u, rfl⟩ := List.exists_cons_of_ne_nil hd.1
    cases negative with
    | true => exact ⟨'-', c :: u ++ s, rfl, by decide⟩
    | false =>
      refine ⟨c, u ++ s, rfl, ?_⟩
      by_contra blank
      rw [Bool.not_eq_false] at blank
      have notName := (not_continuesName_of_isBlank blank).1
      rw [continuesName_of_isDigit (hd.2 c List.mem_cons_self)] at notName
      cases notName
  cases h with
  | double negative hw hf => exact number negative hw _
  | integer negative hd value => simpa using number negative hd []
  | string quoted => exact ⟨'"', _, rfl, by decide⟩
  | boolean value =>
    cases value with
    | true => exact ⟨'t', _, rfl, by decide⟩
    | false => exact ⟨'f', _, rfl, by decide⟩

/-- A bracket, a comma or a point begins no literal. -/
theorem literal_mark {c : Char} (mark : c ∈ ['[', '(', '.', ')', ']', ',']) (s : List Char) :
    silent literal (c :: s) = none := by
  have other : c ≠ '-' ∧ c.isDigit = false ∧ c ≠ '"' ∧ c ≠ 't' ∧ c ≠ 'f' := by
    simp only [List.mem_cons, List.not_mem_nil, or_false] at mark
    obtain rfl | rfl | rfl | rfl | rfl | rfl := mark <;> decide
  obtain ⟨sign, digit, quote, noTrue, noFalse⟩ := other
  rw [literal_cons sign digit quote, truth_eq_none rfl noTrue, truth_eq_none rfl noFalse]
  rfl

/-- A name is none of the two words, and the words are read as a whole. -/
theorem truth_name (value : Bool) {n : String} (h : IsName n) {rest : List Char}
    (hrest : ∀ c ∈ rest.head?, continuesName c = false) :
    silent (truth (if value then "true" else "false") value) (n.toList ++ rest) = none := by
  generalize hw : (if value then "true" else "false") = w
  have other : n ≠ w := by
    subst hw
    cases value
    · exact h.2.2
    · exact h.2.1
  have continues : ∀ c ∈ w.toList, continuesName c = true := by
    subst hw
    apply List.all_eq_true.1
    cases value <;> rfl
  have whole {u : List Char} {v : String} (hv : ∀ c ∈ v.toList, continuesName c = true)
      (hu : ∀ c ∈ u.head?, continuesName c = false) :
      (v.toList ++ u).takeWhile continuesName = v.toList := (span_append hv hu).1
  have named : ∀ c ∈ n.toList, continuesName c = true := by
    obtain ⟨c, s, hn, begins, all⟩ := IsName.exists_cons h
    rw [hn]
    exact List.forall_mem_cons.2 ⟨continuesName_of_beginsName begins, all⟩
  rw [silent_truth]
  cases found : word w.toList (n.toList ++ rest) with
  | none => rfl
  | some left =>
    have same := (word_eq_some_iff _ _ _).1 found
    have further : ¬ ∀ c ∈ left.head?, continuesName c = false := by
      intro ends
      have words := whole named hrest
      rw [same, whole continues ends] at words
      exact other (String.toList_inj.1 words.symm)
    cases left with
    | nil => exact absurd (by simp) further
    | cons c s =>
      have continued : continuesName c = true := by simpa using further
      simp [continued]

theorem literal_name {n : String} (h : IsName n) {rest : List Char}
    (hrest : ∀ c ∈ rest.head?, continuesName c = false) : silent literal (n.toList ++ rest) = none := by
  have noTruth value := truth_name value h hrest
  have isTrue := noTruth true
  have isFalse := noTruth false
  obtain ⟨c, s, hn, begins, -⟩ := IsName.exists_cons h
  have other := (ne_of_beginsName begins).2
  simp only [List.mem_cons, List.not_mem_nil, or_false, not_or] at other
  rw [hn, List.cons_append] at isTrue isFalse ⊢
  rw [literal_cons other.1 (not_isDigit_of_beginsName begins) other.2.1]
  change silent (truth "true" true) _ = none at isTrue
  change silent (truth "false" false) _ = none at isFalse
  rw [isTrue, isFalse]
  rfl

end Fluent.Reader

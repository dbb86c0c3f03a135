import Mathlib.Data.List.DropRight
import Fluent.Proofs.Reader.Completeness

/-!
# Where an error points

An error names a place in the text, between what stands before it and what is left from there on. If
something is left after an expression, what stands before is an expression by itself, however much
of what is left had been read in vain: a rule that fails gives back all that it has read.

If no expression is read, the place is that of the innermost attempt. The rules for brackets may
have tried much by then, but only the last alternative tells of its failure, and that is a name: it
is missed where the expression should begin, with nothing but blanks before it.

Main statements: `Reader.trace_of_expressionOver`, what was tried if no expression is read;
`SyntaxError.points_of_between`, what an error says about its place; and
`Expr.errors_point_at_place`.
-/
namespace Fluent

open Grammar

namespace Span

/-- The last line is what stands after the last line end. -/
theorem exists_lastLine (s : List Char) :
    ∃ before, s = before ++ lastLine s ∧ (before = [] ∨ ∃ earlier, before = earlier ++ ['\n']) ∧
      '\n' ∉ lastLine s := by
  refine ⟨s.rdropWhile (· != '\n'), List.rdropWhile_append_rtakeWhile.symm, ?_, fun mem => ?_⟩
  · by_cases first : s.rdropWhile (· != '\n') = []
    · exact .inl first
    · have last := List.rdropWhile_last_not (· != '\n') s first
      simp only [bne_iff_ne, ne_eq, Decidable.not_not] at last
      have split := List.dropLast_append_getLast first
      rw [last] at split
      exact .inr ⟨_, split.symm⟩
  · have other := List.mem_rtakeWhile_imp mem
    simp at other

end Span

namespace SyntaxError

/-- What an error says about its place, if it stands between these two texts. -/
structure Points (error : SyntaxError) (read left : String) : Prop where
  start : error.span.start = read.utf8ByteSize
  stop : error.span.stop = min (error.span.start + 1) (read ++ left).utf8ByteSize
  found : error.found = String.ofList (left.toList.take 20)
  line : error.span.line = read.toList.count '\n' + 1
  /-- The column counts the characters after the last line end, or else those from the start. -/
  column : ∃ before rest : String, read = before ++ rest ∧
    (before = "" ∨ ∃ earlier, before = earlier ++ "\n") ∧ '\n' ∉ rest.toList ∧
      error.span.column = rest.length + 1

/-- What stands before the place of an error and from there on, according to its cause. -/
def Divides : SyntaxError → String → String → Prop
  | trailing _ _, read, left => (∃ e, Expr.parse read = .ok e) ∧ left ≠ ""
  | noExpression _ _ _, read, _ => ∀ c ∈ read.toList, c ∈ [' ', '\t', '\r', '\n']

theorem points_of_between {error : SyntaxError} {read left : List Char}
    (span : error.span = Span.between read left)
    (found : error.found = String.ofList (left.take shown)) :
    error.Points (String.ofList read) (String.ofList left) := by
  refine ⟨?_, ?_, ?_, ?_, ?_⟩
  · rw [span]
    rfl
  · rw [span, String.utf8ByteSize_append]
    rfl
  · rw [found, String.toList_ofList]
    rfl
  · rw [span, String.toList_ofList]
    rfl
  · obtain ⟨before, split, first, last⟩ := Span.exists_lastLine read
    refine ⟨String.ofList before, String.ofList (Span.lastLine read), ?_, ?_, ?_, ?_⟩
    · rw [← String.ofList_append, ← split]
    · obtain rfl | ⟨earlier, rfl⟩ := first
      · exact .inl rfl
      · exact .inr ⟨String.ofList earlier, String.ofList_append⟩
    · rwa [String.toList_ofList]
    · rw [span, String.length_ofList]
      rfl

end SyntaxError

namespace Reader

/-- Where no blank is left to skip, none stands in front. -/
theorem not_blank_of_skipBlanks_eq {s : List Char} (h : skipBlanks s = s) {c : Char}
    {rest : List Char} (first : s = c :: rest) : c ∉ [' ', '\t', '\r', '\n'] := by
  have clear : isBlank c = false := by
    have stays := List.head?_dropWhile_not isBlank s
    rw [← skipBlanks, h, first] at stays
    exact stays
  intro blank
  rw [(isBlank_iff c).2 blank] at clear
  cases clear

theorem skipBlanks_of_leadingExpression {s rest : List Char} {e : Expr}
    (h : leadingExpression s = .ok (e, rest)) : skipBlanks rest = rest := by
  unfold leadingExpression at h
  obtain ⟨⟨e', left⟩, -, h⟩ := bind_eq_ok_iff.1 h
  cases h
  exact skipBlanks_skipBlanks left

/-! ### What was tried -/

section

variable {α β : Type} {rule other : Rule α} {s : List Char} {trace : Trace}

theorem bind_eq_error_iff {answer : Except Trace α} {f : α → Except Trace β} :
    (answer >>= f) = .error trace ↔
      answer = .error trace ∨ ∃ x, answer = .ok x ∧ f x = .error trace := by
  cases answer <;> simp

theorem exists_of_within_eq_error {name : String} (h : rule.within name s = .error trace) :
    ∃ inner, rule s = .error inner ∧ trace = inner ++ [⟨.rule name, s⟩] := by
  unfold Rule.within at h
  cases found : rule s with
  | ok x =>
    rw [found] at h
    cases h
  | error inner =>
    rw [found] at h
    cases h
    exact ⟨inner, rfl, rfl⟩

/-- Of two alternatives the second tells why it fails. -/
theorem of_either_eq_error (h : rule.either other s = .error trace) :
    silent rule s = none ∧ other s = .error trace := by
  unfold Rule.either at h
  cases found : rule s with
  | ok x =>
    rw [found] at h
    cases h
  | error inner =>
    rw [found] at h
    exact ⟨by rw [silent, found, result?], h⟩

theorem of_map_eq_error {f : α → β} (h : rule.map f s = .error trace) : rule s = .error trace := by
  unfold Rule.map at h
  cases found : rule s with
  | ok x =>
    rw [found] at h
    cases h
  | error inner =>
    rw [found] at h
    cases h
    rfl

end

/-- A word that is no name for being reserved is a literal. -/
theorem silent_literal_ne_none {s rest : List Char} {name : String}
    (found : run s = .ok (name, rest)) (isReserved : reserved.contains name = true) :
    silent literal s ≠ none := by
  obtain ⟨read, rfl, rfl, -⟩ := reads_run _ _ _ found
  have ends := not_continuesName_of_run found
  simp only [reserved, List.contains_eq_mem, decide_eq_true_eq, List.mem_cons, List.not_mem_nil,
    or_false] at isReserved
  intro noLiteral
  simp only [silent_literal, Option.orElse_eq_none, Option.map_eq_none_iff] at noLiteral
  obtain ⟨-, -, -, noTrue, noFalse⟩ := noLiteral
  obtain rfl | rfl := isReserved
  · have read : silent (truth "true" true) ("true".toList ++ rest) = some (true, rest) :=
      truth_append true ends
    rw [noTrue] at read
    cases read
  · have read : silent (truth "false" false) ("false".toList ++ rest) = some (false, rest) :=
      truth_append false ends
    rw [noFalse] at read
    cases read

theorem trace_of_run {s : List Char} {trace : Trace} (h : run s = .error trace) :
    trace = [⟨.rule "TakeWhile1", s⟩] := by
  cases s with
  | nil =>
    cases h
    rfl
  | cons c s =>
    rw [run] at h
    split at h
    · cases h
    · cases h
      rfl

/-- A name that is missed has no first character, unless it is a reserved word. -/
theorem trace_of_identifier {s : List Char} {trace : Trace} (h : identifier s = .error trace)
    (noLiteral : silent literal s = none) :
    trace = [⟨.rule "TakeWhile1", s⟩, ⟨.rule "identifier", s⟩] := by
  unfold identifier at h
  obtain missed | ⟨⟨name, rest⟩, found, h⟩ := bind_eq_error_iff.1 h
  · obtain ⟨told, first, whole⟩ := exists_of_within_eq_error missed
    rw [whole, trace_of_run first]
    rfl
  · have read : run s = .ok (name, rest) := by
      rw [← silent_eq_some_iff, ← silent_within run s "identifier"]
      exact silent_eq_some_iff.2 found
    dsimp only at h
    split at h
    · exact absurd noLiteral (silent_literal_ne_none read ‹_›)
    · cases h

/-- What was tried where no expression is read: a name, which is the last of the alternatives, after
the blanks in front. -/
def unread (s : List Char) : Trace :=
  [⟨.rule "TakeWhile1", skipBlanks s⟩, ⟨.rule "identifier", skipBlanks s⟩,
    ⟨.rule "Alt", skipBlanks s⟩, ⟨.rule "expression", s⟩]

/-- Whatever had been read in brackets before, nothing of it is told. -/
theorem trace_of_expressionOver {inner : Rule Expr} {s : List Char} {trace : Trace}
    (h : expressionOver inner s = .error trace) : trace = unread s := by
  obtain ⟨told, missed, whole⟩ := exists_of_within_eq_error h
  unfold postfixed at missed
  obtain start | ⟨_, -, later⟩ := bind_eq_error_iff.1 missed
  · unfold primary at start
    obtain padded | ⟨_, -, later⟩ := bind_eq_error_iff.1 start
    · obtain ⟨last, alternatives, same⟩ := exists_of_within_eq_error padded
      -- every alternative is missed, and what the last one tells is told
      obtain ⟨noLiteral, others⟩ := of_either_eq_error alternatives
      obtain ⟨-, others⟩ := of_either_eq_error others
      obtain ⟨-, others⟩ := of_either_eq_error others
      obtain ⟨-, name⟩ := of_either_eq_error others
      rw [silent_map, Option.map_eq_none_iff] at noLiteral
      rw [whole, same, trace_of_identifier (of_map_eq_error name) noLiteral]
      rfl
    · cases later
  · cases later

theorem trace_of_leadingExpression {s : List Char} {trace : Trace}
    (h : leadingExpression s = .error trace) : trace = unread (skipBlanks s) := by
  unfold leadingExpression at h
  obtain missed | ⟨_, -, missed⟩ := bind_eq_error_iff.1 h
  · exact trace_of_expressionOver missed
  · cases missed

end Reader

namespace Span

theorem locate_append (read left : List Char) : locate (read ++ left) left = between read left := by
  rw [locate, before, List.length_append, Nat.add_sub_cancel, List.take_left]

end Span

namespace Expr

open Reader

/-- Either something is left after an expression and the blanks behind it, or else no expression
begins after the blanks in front, and a name was tried there at last. -/
theorem exists_of_parseChars_eq_error {s : List Char} {error : SyntaxError}
    (h : parseChars s = .error error) :
    ∃ read left, s = read ++ left ∧ skipBlanks left = left ∧
      ((error = .afterExpression s left ∧ (∃ e, ExprText read e) ∧ left ≠ []) ∨
        (error = .ofTrace s (unread left) ∧ Blanks read)) := by
  rw [parseChars] at h
  cases answer : leadingExpression s with
  | ok found =>
    obtain ⟨e, rest⟩ := found
    rw [answer] at h
    cases rest with
    | nil => cases h
    | cons c rest =>
      cases h
      obtain ⟨read, split, written⟩ := reads_leadingExpression _ _ _ answer
      exact ⟨read, c :: rest, split, skipBlanks_of_leadingExpression answer,
        .inl ⟨rfl, ⟨e, written⟩, List.cons_ne_nil c rest⟩⟩
  | error trace =>
    rw [answer, trace_of_leadingExpression answer] at h
    cases h
    refine ⟨s.takeWhile isBlank, skipBlanks s, (takeWhile_append_skipBlanks s).symm,
      skipBlanks_skipBlanks s, .inr ⟨rfl, fun c blank => ?_⟩⟩
    exact (isBlank_iff c).1 (List.mem_takeWhile_imp blank)

/-- If no expression begins in what is left, the error points there. -/
theorem between_of_unread (read : List Char) {left : List Char} (skipped : skipBlanks left = left) :
    (SyntaxError.ofTrace (read ++ left) (unread left)).span = Span.between read left ∧
      (SyntaxError.ofTrace (read ++ left) (unread left)).found =
        String.ofList (left.take SyntaxError.shown) := by
  have place : (unread left).head?.map Attempt.left = some left := congrArg some skipped
  unfold SyntaxError.ofTrace
  rw [place]
  exact ⟨Span.locate_append read left, rfl⟩

/-- The place of an error lies between two characters of the text, and what the error says of it is
true: how many bytes stand before it, on which line it is and in which column, and which characters
come next, of which it shows at most twenty. No blank comes next. If an expression ends before the
place, then what stands before it is a text that is read as an expression, and something comes next;
if no expression begins there, nothing but blanks stand before it. -/
theorem errors_point_at_place (s : String) (error : SyntaxError) (h : parse s = .error error) :
    ∃ (place : s.Pos) (read left : String), place.Splits read left ∧
      place.offset.byteIdx = error.span.start ∧ error.Points read left ∧ error.Divides read left ∧
      ∀ c rest, left.toList = c :: rest → c ∉ [' ', '\t', '\r', '\n'] := by
  rw [parse_eq_parseChars] at h
  obtain ⟨read, left, split, skipped, cause⟩ := exists_of_parseChars_eq_error h
  have whole : s = String.ofList read ++ String.ofList left := by
    rw [← String.ofList_append, ← split, String.ofList_toList]
  have splits := String.Pos.splits_ofEqAppend whole
  rw [split] at cause
  have points : error.Points (String.ofList read) (String.ofList left) := by
    obtain ⟨rfl, -⟩ | ⟨rfl, -⟩ := cause
    · exact SyntaxError.points_of_between (Span.locate_append read left) rfl
    · obtain ⟨span, found⟩ := between_of_unread read skipped
      exact SyntaxError.points_of_between span found
  have offset := congrArg String.Pos.Raw.byteIdx splits.offset_eq_rawEndPos
  refine ⟨String.Pos.ofEqAppend whole, String.ofList read, String.ofList left, splits,
    offset.trans points.start.symm, points, ?_, fun c rest first => ?_⟩
  · obtain ⟨rfl, ⟨e, written⟩, more⟩ | ⟨rfl, blanks⟩ := cause
    · refine ⟨⟨e, parse_of_exprText (by rwa [String.toList_ofList])⟩, fun none => more ?_⟩
      rw [← String.toList_ofList (l := left), none]
      rfl
    · intro c mem
      exact blanks c (by rwa [String.toList_ofList] at mem)
  · exact not_blank_of_skipBlanks_eq skipped (String.toList_ofList.symm.trans first)

/-- An argument list that is not closed, on the second line, is given back to its beginning. -/
theorem errors_point_at_place_second_line :
    let s := "\n\"é\".a (2"
    parse s = .error (.trailing "(2" ⟨8, 9, 2, 7⟩) ∧
      ∃ (place : s.Pos) (read left : String), place.Splits read left ∧ place.offset.byteIdx = 8 ∧
        (∃ e, parse read = .ok e) ∧ left ≠ "" := by
  intro s
  have stops : parse s = .error (.trailing "(2" ⟨8, 9, 2, 7⟩) := by
    rw [parse_eq_parseChars]
    cbv
  obtain ⟨place, read, left, splits, start, -, divides, -⟩ := errors_point_at_place s _ stops
  exact ⟨stops, place, read, left, splits, start, divides⟩

end Expr

end Fluent

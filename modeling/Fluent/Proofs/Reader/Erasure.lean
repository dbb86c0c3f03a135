import Mathlib.Data.Option.Basic
import Fluent.Reader.Error

/-!
# Rules without what they tried

Which texts a rule reads, and to what, does not depend on what it tells of its failures. Without
that a rule of alternatives is the first that reads at all, names for rules say nothing, and every
rule of the grammar is made of the silent forms of its parts.

Main statements: `silent_eq_some_iff`, both forms read the same; `silent_literal`, `silent_primary`,
`silent_argument` and `silent_suffix`, the silent forms of the rules with alternatives.
-/
namespace Fluent.Reader

variable {α β : Type}

/-! ### Answers -/

@[simp] theorem result?_ok (x : α) : result? (.ok x) = some x := rfl

@[simp] theorem result?_pure (x : α) : result? (pure x) = some x := rfl

@[simp] theorem result?_miss (goal : Goal) (s : List Char) :
    result? (miss goal s : Except Trace α) = none := rfl

theorem result?_eq_some_iff {answer : Except Trace α} {x : α} :
    result? answer = some x ↔ answer = .ok x := by
  cases answer <;> simp [result?]

@[simp] theorem result?_bind (answer : Except Trace α) (f : α → Except Trace β) :
    result? (answer >>= f) = (result? answer).bind fun x => result? (f x) := by
  cases answer <;> rfl

@[simp] theorem result?_mark (c : Char) (s : List Char) : result? (mark c s) = token c s := by
  unfold mark
  cases token c s <;> rfl

@[simp] theorem ok_bind (x : α) (f : α → Except Trace β) : (Except.ok x >>= f) = f x := rfl

@[simp] theorem error_bind (trace : Trace) (f : α → Except Trace β) :
    ((Except.error trace : Except Trace α) >>= f) = .error trace := rfl

@[simp] theorem miss_bind (goal : Goal) (s : List Char) (f : α → Except Trace β) :
    (miss goal s >>= f) = miss goal s := rfl

/-- Two steps read something exactly if each of them does. -/
theorem bind_eq_ok_iff {answer : Except Trace α} {f : α → Except Trace β} {y : β} :
    (answer >>= f) = .ok y ↔ ∃ x, answer = .ok x ∧ f x = .ok y := by
  cases answer with
  | ok x =>
    constructor
    · exact fun read => ⟨x, rfl, read⟩
    · rintro ⟨_, same, read⟩
      cases same
      exact read
  | error trace =>
    constructor
    · intro read
      cases read
    · rintro ⟨_, same, -⟩
      cases same

theorem mark_eq_ok_iff {c : Char} {s rest : List Char} :
    mark c s = .ok rest ↔ token c s = some rest := by
  rw [← result?_eq_some_iff, result?_mark]

theorem char_eq_ok_iff {c : Char} {s rest : List Char} : char c s = .ok rest ↔ s = c :: rest := by
  cases s with
  | nil => simp [char, miss]
  | cons d s =>
    by_cases same : d = c
    · simp [char, same]
    · simp [char, miss, same]

/-! ### Combined rules -/

theorem result?_rule (rule : Rule α) (s : List Char) : result? (rule s) = silent rule s := rfl

theorem silent_eq_some_iff {rule : Rule α} {s rest : List Char} {x : α} :
    silent rule s = some (x, rest) ↔ rule s = .ok (x, rest) :=
  result?_eq_some_iff

section

variable (rule other : Rule α) (s : List Char)

@[simp] theorem silent_map (f : α → β) :
    silent (rule.map f) s = (silent rule s).map fun found => (f found.1, found.2) := by
  unfold silent Rule.map
  cases rule s <;> rfl

@[simp] theorem silent_within (name : String) : silent (rule.within name) s = silent rule s := by
  unfold silent Rule.within
  cases rule s <;> rfl

@[simp] theorem silent_either :
    silent (rule.either other) s = (silent rule s <|> silent other s) := by
  unfold silent Rule.either
  cases rule s <;> rfl

end

/-! ### Tokens with content -/

theorem silent_run_cons (c : Char) (s : List Char) :
    silent run (c :: s) =
      if beginsName c then
        some (String.ofList (c :: s.takeWhile continuesName), s.dropWhile continuesName)
      else none := by
  rw [silent, run]
  split <;> rfl

theorem silent_identifier (s : List Char) :
    silent identifier s = (silent run s).bind fun found =>
      if reserved.contains found.1 then none else some found := by
  rw [← silent_within run s "identifier"]
  unfold silent identifier
  cases run.within "identifier" s with
  | error trace => rfl
  | ok found =>
    rw [ok_bind, result?_ok, Option.bind_some]
    dsimp only
    split <;> rfl

theorem silent_truth (name : String) (value : Bool) (s : List Char) :
    silent (truth name value) s = (word name.toList s).bind fun rest =>
      if rest.head?.any continuesName then none else some (value, rest) := by
  unfold silent truth
  cases word name.toList s with
  | none => rfl
  | some rest =>
    rw [Option.bind_some]
    dsimp only
    split <;> rfl

theorem silent_literal (s : List Char) :
    silent literal s =
      ((silent double s).map (fun found => (.double found.1, found.2))
        <|> (silent integer s).map (fun found => (.integer found.1, found.2))
        <|> (silent quoted s).map (fun found => (.string found.1, found.2))
        <|> (silent (truth "true" true) s).map (fun found => (.boolean found.1, found.2))
        <|> (silent (truth "false" false) s).map (fun found => (.boolean found.1, found.2))) := by
  simp only [literal, silent_within, silent_either, silent_map]

/-! ### Expressions -/

section

variable (inner : Rule Expr) (s : List Char)

theorem silent_parenthesized :
    silent (parenthesized inner) s = do
      let s ← token '(' s
      let (e, s) ← silent inner s
      let s ← token ')' s
      return (e, s) := by
  rw [silent, parenthesized]
  simp only [result?_bind, result?_mark, result?_rule, result?_pure]
  rfl

theorem silent_array :
    silent (array inner) s = do
      let s ← token '[' s
      let (es, s) := items (silent inner) s
      let s ← token ']' ((token ',' s).getD s)
      return (.array es, s) := by
  rw [array, silent_within, silent]
  simp only [result?_bind, result?_mark, result?_pure]
  rfl

theorem silent_implicitMember :
    silent implicitMember s = (result? (char '.' s)).bind fun s =>
      (silent identifier s).map fun found => (.implicitMember found.1, found.2) := by
  rw [silent, implicitMember]
  simp only [result?_bind, result?_rule, silent_map]

theorem silent_unpadded :
    silent (unpadded inner) s =
      ((silent literal s).map (fun found => (Expr.literal found.1, found.2))
        <|> silent (array inner) s
        <|> silent (parenthesized inner) s
        <|> silent implicitMember s
        <|> (silent identifier s).map (fun found => (.name found.1, found.2))) := by
  simp only [unpadded, silent_within, silent_either, silent_map]

theorem silent_primary :
    silent (primary inner) s = (silent (unpadded inner) (skipBlanks s)).map fun found =>
      (found.1, skipBlanks found.2) := by
  rw [silent, primary]
  simp only [result?_bind, result?_rule, result?_pure, Option.map_eq_bind]
  rfl

theorem silent_labeledArgument :
    silent (labeledArgument inner) s = do
      let (label, s) ← silent identifier (skipBlanks s)
      let s ← token ':' s
      let (e, s) ← silent inner s
      return (⟨some label, e⟩, s) := by
  rw [silent, labeledArgument]
  simp only [result?_bind, result?_mark, result?_rule, silent_map, Option.map_eq_bind]
  rfl

theorem silent_argument :
    silent (argument inner) s = (silent (labeledArgument inner) s
      <|> (silent inner s).map fun found => (⟨none, found.1⟩, found.2)) := by
  simp only [argument, silent_within, silent_either, silent_map]

theorem silent_argumentList :
    silent (argumentList inner) s = do
      let s ← token '(' s
      let (arguments, s) := items (silent (argument inner)) s
      let s ← token ')' s
      return (arguments, s) := by
  rw [argumentList, silent_within, silent]
  simp only [result?_bind, result?_mark, result?_pure]
  rfl

theorem silent_suffix (e : Expr) :
    silent (suffix inner e) s =
      ((silent (argumentList inner) s).map (fun found => (Expr.call e found.1, found.2))
        <|> (token '.' s).bind fun s =>
          (silent identifier s).map fun found => (.member e found.1, found.2)) := by
  rw [suffix, silent_either, silent_map]
  congr 1
  rw [silent, memberName]
  simp only [result?_bind, result?_mark, result?_rule, silent_map]

/-- Suffixes follow as long as there is one to be read. -/
theorem suffixes_cons (c : Char) (bound : List Char) (e : Expr) :
    suffixes inner (c :: bound) e s =
      match silent (suffix inner e) s with
      | none => (e, s)
      | some (longer, rest) => suffixes inner bound longer rest := by
  rw [suffixes, silent]
  cases suffix inner e s <;> rfl

theorem silent_postfixed :
    silent (postfixed inner) s = (silent (primary inner) s).map fun found =>
      suffixes inner found.2 found.1 found.2 := by
  rw [silent, postfixed]
  simp only [result?_bind, result?_rule, result?_pure, Option.map_eq_bind]
  rfl

theorem silent_expressionOver :
    silent (expressionOver inner) s = silent (postfixed inner) s := by
  rw [expressionOver, silent_within]

end

end Fluent.Reader

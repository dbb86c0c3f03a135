import Fluent.Reader.Silent

/-!
# Rules and what they try

A rule that fails tells what it tried, innermost first and each time with the text from there on. A
rule of several alternatives tells of the last one only, and what reads on after a failure, such as
an optional part, tells of nothing.
-/
namespace Fluent.Reader

/-- What is tried at a place in a text: a certain character, or a rule by its name. -/
inductive Goal where
  | char (c : Char)
  | rule (name : String)
deriving DecidableEq, Repr

/-- A goal that was missed, and the text at whose beginning. -/
structure Attempt where
  goal : Goal
  left : List Char
deriving DecidableEq, Repr

/-- All goals that were missed when a rule failed, the innermost first. -/
abbrev Trace := List Attempt

/-- Reads the beginning of a text: what was read and what is left, or else what was tried. -/
abbrev Rule (α : Type) := List Char → Except Trace (α × List Char)

/-- The goal is missed at the beginning of the text. -/
def miss {α : Type} (goal : Goal) (s : List Char) : Except Trace α :=
  .error [⟨goal, s⟩]

/-- Reads one character at the very beginning of the text. -/
def char (c : Char) : List Char → Except Trace (List Char)
  | [] => miss (.char c) []
  | d :: s => if d = c then .ok s else miss (.char c) (d :: s)

/-- Reads one character, and the blanks before and after it. -/
def mark (c : Char) (s : List Char) : Except Trace (List Char) :=
  match token c s with
  | some rest => .ok rest
  | none => miss (.char c) (skipBlanks s)

section

variable {α β : Type}

/-- What a rule answers, without what it tried. -/
def result? : Except Trace α → Option α
  | .ok x => some x
  | .error _ => none

/-- The rule, but it does not say why it fails. -/
def silent (rule : Rule α) : Silent α := fun s =>
  result? (rule s)

namespace Rule

/-- The rule with another value for what it reads. -/
def map (f : α → β) (rule : Rule α) : Rule β := fun s =>
  match rule s with
  | .ok (x, rest) => .ok (f x, rest)
  | .error trace => .error trace

/-- The rule under a name, with which its traces end. -/
def within (name : String) (rule : Rule α) : Rule α := fun s =>
  match rule s with
  | .ok found => .ok found
  | .error trace => .error (trace ++ [⟨.rule name, s⟩])

/-- The first rule, or else the second, which then tells why it fails, too. -/
def either (rule other : Rule α) : Rule α := fun s =>
  match rule s with
  | .ok found => .ok found
  | .error _ => other s

end Rule

end

end Fluent.Reader

/-!
# Settings

What an interpreter is configured with: how an assignment to an unbound name is treated, how a
second registration under one name is treated, and the seed of the random source.
-/
namespace Fluent

/-- What an assignment does when no scope on the way outward binds the name. -/
inductive AssignmentPolicy where
  /-- The assignment fails. -/
  | strict
  /-- The name is defined in the scope the assignment was issued on. -/
  | defineLocal
deriving DecidableEq, Repr, Inhabited

/-- What a registration does when its name is taken. -/
inductive DuplicatePolicy where
  /-- The registration fails and the earlier handler stays. -/
  | reject
  /-- The later handler takes the place of the earlier. -/
  | replace
deriving DecidableEq, Repr, Inhabited

namespace AssignmentPolicy

def text : AssignmentPolicy → String
  | strict => "strict"
  | defineLocal => "define_local"

def all : List AssignmentPolicy :=
  [strict, defineLocal]

def ofText? (s : String) : Option AssignmentPolicy :=
  all.find? fun p => p.text == s

@[simp] theorem ofText?_text (p : AssignmentPolicy) : ofText? p.text = some p := by
  cases p <;> decide

end AssignmentPolicy

namespace DuplicatePolicy

def text : DuplicatePolicy → String
  | reject => "reject"
  | replace => "replace"

def all : List DuplicatePolicy :=
  [reject, replace]

def ofText? (s : String) : Option DuplicatePolicy :=
  all.find? fun p => p.text == s

@[simp] theorem ofText?_text (p : DuplicatePolicy) : ofText? p.text = some p := by
  cases p <;> decide

end DuplicatePolicy

/-- What an interpreter is configured with. -/
structure Settings where
  assignment : AssignmentPolicy := .strict
  duplicates : DuplicatePolicy := .reject
  /-- The seed of the random source; without one the source is whatever the surroundings offer. -/
  seed : Option UInt64 := none
deriving DecidableEq, Repr, Inhabited

namespace Settings

/-- The same settings with a seed. -/
def withSeed (s : Settings) (seed : UInt64) : Settings :=
  { s with seed := some seed }

end Settings

end Fluent

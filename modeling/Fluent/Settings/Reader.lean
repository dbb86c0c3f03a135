import Fluent.Decimal.Reading
import Fluent.Settings
import Fluent.Settings.Json

/-!
# Reading settings

Settings are a JSON object with a field for each of them, all optional. A field that is not known
is passed over, and one that is known may stand only once. Settings may also be an array of the
fields in order, from which those at the end may be missing.
-/
namespace Fluent.Settings

open Fluent.Reader

/-- What one field of the settings says. -/
inductive Field where
  | assignment (policy : AssignmentPolicy)
  | duplicates (policy : DuplicatePolicy)
  | seed (value : Option UInt64)
  | unknown

namespace Field

/-- The name of the field, if it is known. -/
def name? : Field → Option String
  | assignment _ => some "assignment"
  | duplicates _ => some "duplicate_registration"
  | seed _ => some "shuffle_seed"
  | unknown => none

/-- The settings with what the field says. -/
def apply (s : Settings) : Field → Settings
  | assignment policy => { s with assignment := policy }
  | duplicates policy => { s with duplicates := policy }
  | seed value => { s with seed := value }
  | unknown => s

end Field

/-- The name of a choice, or an object with that name as its only key and null as its value. -/
def choice : Silent String := fun s =>
  Json.text s <|> do
    let s ← token '\x7b' s
    let (name, s) ← Json.text s
    let s ← token ':' s
    let s ← word "null".toList s
    let s ← token '\x7d' s
    return (name, s)

/-- The seed: null, or the digits of a whole number below `2 ^ 64`. -/
def seedValue : Silent (Option UInt64) := fun s =>
  let s := skipBlanks s
  (word "null".toList s).map (none, ·) <|> do
    let rest ← Json.skipWhole s
    let value := Decimal.digitsValue (s.takeWhile Char.isDigit)
    let continues := match rest with
      | c :: _ => c = '.' || c = 'e' || c = 'E'
      | [] => false
    if value < UInt64.size && !continues then some (some (UInt64.ofNat value), rest) else none

def assignmentField : Silent Field := fun s => do
  let (name, s) ← choice s
  return (.assignment (← AssignmentPolicy.ofText? name), s)

def duplicatesField : Silent Field := fun s => do
  let (name, s) ← choice s
  return (.duplicates (← DuplicatePolicy.ofText? name), s)

def seedField : Silent Field := fun s => do
  let (value, s) ← seedValue s
  return (.seed value, s)

/-- A field with its name. -/
def namedField : Silent Field := fun s => do
  let (name, s) ← Json.text s
  let s ← token ':' s
  if name = "assignment" then assignmentField s
  else if name = "duplicate_registration" then duplicatesField s
  else if name = "shuffle_seed" then seedField s
  else return (.unknown, ← Json.skipValue s)

/-- The fields in their order, each after the one before it; later ones may be missing. -/
def orderedFields : List (Silent Field) → Silent (List Field)
  | [], _ => none
  | field :: fields, s => do
    let (f, s) ← field s
    match token ',' s with
    | none => return ([f], s)
    | some s =>
      let (fs, s) ← orderedFields fields s
      return (f :: fs, s)

/-- The fields of an object. -/
def objectFields (s : List Char) : Option (List Field × List Char) := do
  let s ← token '\x7b' s
  let (fields, s) := items namedField s
  let s ← token '\x7d' s
  return (fields, s)

/-- The fields of an array. -/
def arrayFields (s : List Char) : Option (List Field × List Char) := do
  let s ← token '[' s
  let (fields, s) := (orderedFields [assignmentField, duplicatesField, seedField] s).getD ([], s)
  let s ← token ']' s
  return (fields, s)

/-- No known field stands twice. -/
def distinct (fields : List Field) : Bool :=
  let names := fields.filterMap Field.name?
  names.eraseDups.length = names.length

/-- Reads a whole text as settings. -/
def parse (text : String) : Option Settings := do
  let (fields, rest) ← objectFields text.toList <|> arrayFields text.toList
  if rest.isEmpty && distinct fields then some (fields.foldl Field.apply {}) else none

example : parse "\x7b\x7d" = some {} := by decide +kernel

example : parse "[\"define_local\"]" = some { assignment := .defineLocal } := by decide +kernel

end Fluent.Settings

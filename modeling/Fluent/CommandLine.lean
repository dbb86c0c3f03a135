import Fluent.Files
import Fluent.Interpreter
import Fluent.Text.Space

/-!
# The command line

Arguments are read from left to right. An option that takes a value takes it from its own argument
or from the next one; a value from the next one is checked only when something else is read or the
arguments end. The program then evaluates or renders one expression, given as an argument or in a
file, and answers the text of the result.
-/
namespace Fluent.CommandLine

/-- Why arguments are not accepted, or are answered at once. -/
inductive UsageError where
  | displayHelp
  | displayVersion
  | unknownArgument
  /-- An option without its value. -/
  | invalidValue
  /-- A value that cannot be read. -/
  | valueValidation
  /-- Arguments that exclude one another, or an option given twice. -/
  | argumentConflict
  /-- A value for an option that takes none. -/
  | tooManyValues
deriving DecidableEq, Repr

/-- An option that takes a value. -/
inductive Valued where
  | file
  | config
  | seed
  | assignment
deriving DecidableEq, Repr

/-- An option that takes no value. -/
inductive Switch where
  | value
  | verbose
  | help
  | version
deriving DecidableEq, Repr

/-- An option of either sort. -/
inductive Flag where
  | valued (v : Valued)
  | switch (s : Switch)

/-- What the arguments say. -/
structure Options where
  expression : Option String := none
  file : Option String := none
  config : Option String := none
  seed : Option UInt64 := none
  assignment : Option AssignmentPolicy := none
  value : Bool := false
  verbose : Bool := false
deriving DecidableEq, Repr

/-- Something read whose value has not been checked. -/
inductive Pending where
  | nothing
  | expression (text : String)
  /-- An option that waits for its value. -/
  | waiting (v : Valued)
  | option (v : Valued) (value : String)

/-- How far the arguments have been read. -/
structure State where
  options : Options := {}
  pending : Pending := .nothing
  /-- An expression has been read. -/
  positional : Bool := false

/-- The option of a long name. -/
def long? : String → Option Flag
  | "file" => some (.valued .file)
  | "config" => some (.valued .config)
  | "seed" => some (.valued .seed)
  | "assignment" => some (.valued .assignment)
  | "value" => some (.switch .value)
  | "verbose" => some (.switch .verbose)
  | "help" => some (.switch .help)
  | "version" => some (.switch .version)
  | _ => none

/-- The option of a letter. -/
def short? (c : Char) : Option Flag :=
  if c = 'f' then some (.valued .file)
  else if c = 'c' then some (.valued .config)
  else if c = 's' then some (.valued .seed)
  else if c = 'v' then some (.switch .verbose)
  else if c = 'h' then some (.switch .help)
  else if c = 'V' then some (.switch .version)
  else none

/-- A seed: digits, with a plus sign or not, of a number below `2 ^ 64`. -/
def readSeed? (text : String) : Option UInt64 :=
  let digits := match text.toList with
    | '+' :: rest => rest
    | s => s
  let value := Decimal.digitsValue digits
  if !digits.isEmpty && digits.all Char.isDigit && value < UInt64.size then some (UInt64.ofNat value)
  else none

/-- The option has been given. -/
def Options.has (o : Options) : Valued → Bool
  | .file => o.file.isSome
  | .config => o.config.isSome
  | .seed => o.seed.isSome
  | .assignment => o.assignment.isSome

/-- Gives an option a value, which must be of its kind. -/
def Options.give (o : Options) (v : Valued) (value : String) : Except UsageError Options :=
  if o.has v then .error .argumentConflict
  else
    match v with
    | .file =>
      if value.isEmpty then .error .invalidValue else .ok { o with file := some value }
    | .config =>
      if value.isEmpty then .error .invalidValue else .ok { o with config := some value }
    | .seed =>
      match readSeed? value with
      | some seed => .ok { o with seed := some seed }
      | none => .error .valueValidation
    | .assignment =>
      match AssignmentPolicy.ofText? value with
      | some policy => .ok { o with assignment := some policy }
      | none => .error .valueValidation

/-- Checks what has been read but not checked. -/
def State.settle (s : State) : Except UsageError State :=
  match s.pending with
  | .nothing => .ok s
  | .expression text =>
    .ok { s with pending := .nothing, options := { s.options with expression := some text } }
  | .waiting _ => .error .invalidValue
  | .option v value => do
    return { s with pending := .nothing, options := ← s.options.give v value }

/-- Reads an option that takes no value. -/
def State.turn (s : State) (switch : Switch) : Except UsageError State := do
  let s ← s.settle
  match switch with
  | .value =>
    if s.options.value then .error .argumentConflict
    else return { s with options := { s.options with value := true } }
  | .verbose =>
    if s.options.verbose then .error .argumentConflict
    else return { s with options := { s.options with verbose := true } }
  | .help => .error .displayHelp
  | .version => .error .displayVersion

/-- Reads an option that takes a value, which its own argument may hold. -/
def State.take (s : State) (v : Valued) (attached : Option String) : Except UsageError State := do
  let s ← s.settle
  match attached with
  | some value => return { s with options := ← s.options.give v value }
  | none => return { s with pending := .waiting v }

/-- Reads an argument that starts with two dashes, after those. -/
def State.long (s : State) (argument : List Char) : Except UsageError State :=
  let name := argument.takeWhile (· != '=')
  let attached := match argument.dropWhile (· != '=') with
    | [] => none
    | _ :: value => some (String.ofList value)
  match long? (String.ofList name), attached with
  | none, _ => .error .unknownArgument
  | some (.valued v), attached => s.take v attached
  | some (.switch _), some _ => .error .tooManyValues
  | some (.switch switch), none => s.turn switch

/-- Reads the letters of an argument that starts with one dash. Those after an option that takes a
value are its value. -/
def State.short (s : State) : List Char → Except UsageError State
  | [] => .ok s
  | c :: rest =>
    match short? c with
    | none => .error .unknownArgument
    | some (.switch switch) => do (← s.turn switch).short rest
    | some (.valued v) =>
      match rest with
      | [] => s.take v none
      | '=' :: value => s.take v (some (String.ofList value))
      | value => s.take v (some (String.ofList value))

/-- Reads an argument that is no option. -/
def State.position (s : State) (argument : String) : Except UsageError State := do
  if s.positional then .error .unknownArgument
  else
    let s ← s.settle
    return { s with pending := .expression argument, positional := true }

/-- Reads arguments. -/
def readAll (s : State) : List String → Except UsageError State
  | [] => s.settle
  | argument :: rest =>
    match argument.toList with
    | ['-', '-'] => do (← rest.foldlM State.position s).settle
    | '-' :: '-' :: name => do readAll (← s.long name) rest
    | '-' :: c :: letters => do readAll (← s.short (c :: letters)) rest
    | _ =>
      match s.pending with
      | .waiting v => readAll { s with pending := .option v argument } rest
      | _ => do readAll (← s.position argument) rest

/-- What the arguments of the program say. -/
def parse (arguments : List String) : Except UsageError Options := do
  let s ← readAll {} arguments
  if s.options.file.isSome && s.options.expression.isSome then .error .argumentConflict
  else return s.options

/-- The file that settings are read from if no other is named. -/
def defaultConfig : String := "viewchain.json"

/-- The settings: those of the file, if there is one, and the options in place of them. -/
def settings (o : Options) (files : Files) : Except Failure Settings := do
  let entry := files (o.config.getD defaultConfig)
  let read ←
    if entry.isPresent then
      match entry.read.toOption.bind Settings.parse with
      | some settings => pure settings
      | none => throw .badSettings
    else pure {}
  return { read with
    seed := o.seed <|> read.seed
    assignment := o.assignment.getD read.assignment }

/-- The source text. -/
def source (o : Options) (files : Files) : Except Failure String :=
  match o.file, o.expression with
  | some name, _ => (files name).read.mapError (.unreadable name)
  | none, some expression => .ok expression
  | none, none => .error .noExpression

/-- The engine of the program: the recording host, and no native functions. -/
def engine (settings : Settings) : Except Failure (Engine Unit) := do
  let (result, registry) := Recording.installDefaults.run.run (.withCollections settings.duplicates)
  match result with
  | .ok _ =>
    return { registry := registry, native := fun f _ => throw (.unknownFunction f.name) }
  | .error e => throw (.stopped (.failed e))

/-- What the program prints. Without a seed it draws from the source given. -/
def run (o : Options) (files : Files) (unseeded : Random) : Except Failure String := do
  let settings ← settings o files
  let source ← source o files
  let interpreter := Interpreter.create settings (← engine settings) unseeded ()
  let trimmed := String.ofList (Text.trim source.toList)
  let (result, _) :=
    if o.value then interpreter.evaluateSource [] trimmed Arena.global
    else interpreter.renderSource [] trimmed
  return (← result).describe

end Fluent.CommandLine

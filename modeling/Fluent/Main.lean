import Fluent.CommandLine

/-!
# The program

Evaluates or renders one expression and prints the text of the result. What the arguments mean and
what is printed is settled in `Fluent.CommandLine`; here files are read and texts are written.
-/
namespace Fluent.CommandLine

/-- How the program is used. -/
def help : String :=
  "\n".intercalate
    ["Usage: fluent [OPTIONS] [EXPRESSION]", "",
     "Renders a chain of calls as a view and prints it.", "",
     "Options:",
     "  -f, --file <FILE>              Read the expression from a file",
     "  -c, --config <FILE>            Read the settings from this file",
     "  -s, --seed <SEED>              Seed of the random source",
     "      --assignment <ASSIGNMENT>  strict or define_local",
     "      --value                    Evaluate a value in place of a view",
     "  -v, --verbose                  Name the files that are read",
     "  -h, --help                     Print help",
     "  -V, --version                  Print version"]

/-- What the program calls itself. -/
def version : String := "fluent 0.1.0"

/-- What is said about arguments that are not accepted. -/
def UsageError.message : UsageError → String
  | displayHelp => help
  | displayVersion => version
  | unknownArgument => "unexpected argument"
  | invalidValue => "a value is required but none was supplied"
  | valueValidation => "invalid value"
  | argumentConflict => "an argument is given twice or excludes another"
  | tooManyValues => "unexpected value for an option without one"

/-- Help and the version are asked for; the other causes are mistakes. -/
def UsageError.isMistake : UsageError → Bool
  | displayHelp => false
  | displayVersion => false
  | _ => true

/-- Reads what a path leads to. -/
def readEntry (path : String) : IO Files.Entry := do
  try
    return .file (← IO.FS.readFile path)
  catch
    | .noFileOrDirectory .. => return .nothing .missing
    | .inappropriateType (some _) .. => return .nothing .throughFile
    | .inappropriateType none .. => return .directory
    | .invalidArgument .. => return .nothing (if path.contains '\x00' then .zero else .tooLong)
    | .userError _ => return .unreadable "stream did not contain valid UTF-8"
    | e => return .unreadable (toString e)

/-- Reads the files that the options name, and no others. -/
def readFiles (o : Options) : IO Files := do
  let names := o.config.getD defaultConfig :: o.file.toList
  if o.verbose then names.forM fun name => IO.eprintln s!"reading {name}"
  let entries ← names.mapM fun name => return (name, ← readEntry name)
  return fun name => (entries.lookup name).getD (.nothing .missing)

/-- A random source that nobody can foresee. -/
def unforeseen : IO Random := do
  let bytes ← IO.getRandomBytes 8
  return .seeded (bytes.toList.foldl (fun seed byte => seed * 256 + byte.toUInt64) 0)

/-- Answers a request or reports a mistake. -/
def report (e : UsageError) : IO UInt32 := do
  if e.isMistake then
    IO.eprintln s!"error: {e.message}"
    return 2
  else
    IO.println e.message
    return 0

/-- Carries out what the options say. -/
def carryOut (o : Options) : IO UInt32 := do
  match run o (← readFiles o) (← unforeseen) with
  | .ok output =>
    IO.println output
    return 0
  | .error f =>
    IO.eprintln s!"Error: {f.message}"
    return 1

end Fluent.CommandLine

/-- The program: zero for success, one for a failed evaluation, two for a mistake in the
arguments. -/
def main (arguments : List String) : IO UInt32 :=
  match Fluent.CommandLine.parse arguments with
  | .ok options => Fluent.CommandLine.carryOut options
  | .error e => Fluent.CommandLine.report e

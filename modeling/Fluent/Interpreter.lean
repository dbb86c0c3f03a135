import Fluent.Evaluation
import Fluent.Random.ChaCha
import Fluent.Reader.Error
import Fluent.Recording
import Fluent.Settings.Reader

/-!
# Interpreters

An interpreter is an engine, a world that evaluations change one after the other, and the settings
it was made with. Between evaluations its holder may keep values; the objects that those refer to
stay alive.
-/
namespace Fluent

/-- Why source text gives no result. -/
inductive Failure where
  | malformed (e : SyntaxError)
  | stopped (stop : Stop)
  /-- Settings that cannot be read. -/
  | badSettings
  | noExpression
  /-- A file that cannot be read, and why. -/
  | unreadable (file reason : String)

def Stop.message : Stop → String
  | failed e => e.message
  | exhausted => "Functions are nested too deeply"

/-- The wording of a failure. -/
def Failure.message : Failure → String
  | malformed e => "Syntax error: " ++ e.message
  | stopped stop => "Eval error: " ++ stop.message
  | badSettings => "Config error: Failed to parse config"
  | noExpression => "Config error: no expression given"
  | unreadable file reason => s!"Config error: Failed to read {file}: {reason}"

/-- An interpreter. -/
structure Interpreter (σ : Type) where
  settings : Settings
  engine : Engine σ
  world : World σ

namespace Interpreter

variable {σ α : Type}

/-- The first identity that the built-in types leave free. -/
def firstIdentity : Nat :=
  BuiltIn.identities * BuiltIn.all.length

/-- An interpreter with these handlers and native functions. The built-in types are bound in its
global scope. Without a seed it draws from the source given. -/
def create (settings : Settings) (engine : Engine σ) (unseeded : Random) (state : σ) :
    Interpreter σ where
  settings := settings
  engine := engine
  world :=
    { arena := .ofGlobals settings.assignment BuiltIn.bindings
      random := match settings.seed with
        | some seed => .seeded seed
        | none => unseeded
      host := { state := state, identity := firstIdentity } }

/-- Carries out an evaluation while its surroundings hold these values. -/
def carryOut (i : Interpreter σ) (held : List Value) (action : EvalM σ α) :
    Except Stop α × Interpreter σ :=
  let (result, world) := (action.run held).run.run i.world
  (result, { i with world := world })

/-- Carries out a change of the registry. -/
def configure (i : Interpreter σ) (action : RegistryM σ α) :
    Except EvalError α × Interpreter σ :=
  let (result, registry) := action.run.run i.engine.registry
  (result, { i with engine := { i.engine with registry := registry } })

/-- Reads source text and evaluates it in a scope. -/
def evaluateSource (i : Interpreter σ) (held : List Value) (source : String) (scope : ScopeId) :
    Except Failure Value × Interpreter σ :=
  match Expr.parse source with
  | .error e => (.error (.malformed e), i)
  | .ok e =>
    let (result, i) := i.carryOut held (i.engine.evaluate e scope)
    (result.mapError .stopped, i)

/-- Reads source text and builds its view in the global scope. -/
def renderSource (i : Interpreter σ) (held : List Value) (source : String) :
    Except Failure Value × Interpreter σ :=
  match Expr.parse source with
  | .error e => (.error (.malformed e), i)
  | .ok e =>
    let (result, i) := i.carryOut held (i.engine.render e Arena.global)
    ((result.map .artifact).mapError .stopped, i)

/-- A constant member of a type that the global scope binds. -/
def typeMember? (i : Interpreter σ) (type member : String) : Option Value :=
  match i.world.arena.find? Arena.global type with
  | some (.type t) => t.members.find? member
  | _ => none

end Interpreter

end Fluent

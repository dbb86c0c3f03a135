import Fluent.Arena.Life
import Fluent.Arena.Write
import Fluent.Random

/-!
# The world of an evaluation

Evaluation works on the arena, the random source and the state of the host. The code that makes
and changes artifacts works on the host's state alone. Observers are changes of the host's state.

Objects live as long as a handle to them is held, so an evaluation knows, besides the world it
changes, the values that are held around it.
-/
namespace Fluent

/-- What belongs to the host: a state of its own and the supply of identities. -/
structure Host (σ : Type) where
  state : σ
  /-- The next identity that has not been given to anything. -/
  identity : Nat := 0

/-- Code of the host, which sees no scope. -/
abbrev HostM (σ : Type) := ExceptT EvalError (StateM (Host σ))

/-- Takes an identity that nothing else has. -/
def HostM.fresh {σ : Type} : HostM σ Nat :=
  modifyGet fun h => (h.identity, { h with identity := h.identity + 1 })

/-- Everything that an evaluation may change. -/
structure World (σ : Type) where
  arena : Arena (σ → σ)
  random : Random
  host : Host σ
  /-- Values that member functions have put aside. -/
  kept : List Value := []

/-- How an evaluation ends without a value. -/
inductive Stop where
  | failed (e : EvalError)
  /-- Functions called one another too deeply. -/
  | exhausted

/-- An evaluation. It reads the values that are held around it, and leaves a world behind also
when it stops. -/
abbrev EvalM (σ : Type) := ReaderT (List Value) (ExceptT Stop (StateM (World σ)))

namespace EvalM

variable {σ α : Type}

/-- Ends the evaluation with an error. -/
def fail (e : EvalError) : EvalM σ α :=
  throw (.failed e)

/-- The result of a computation that may fail. -/
def ofExcept : Except EvalError α → EvalM σ α
  | .ok a => return a
  | .error e => fail e

/-- Carries out an action on the arena. -/
def onArena (action : ArenaM (σ → σ) α) : EvalM σ α := do
  let w ← get
  let (result, arena) := action.run.run w.arena
  set { w with arena := arena }
  ofExcept result

/-- Carries out a write and calls the observers it concerns, in order. -/
def notifying (action : ArenaM (σ → σ) (List (σ → σ))) : EvalM σ Unit := do
  let observers ← onArena action
  modify fun w =>
    { w with host := { w.host with state := observers.foldl (fun s f => f s) w.host.state } }

/-- Carries out code of the host. -/
def onHost (action : HostM σ α) : EvalM σ α := do
  let w ← get
  let (result, host) := action.run.run w.host
  set { w with host := host }
  ofExcept result

/-- Carries out an evaluation around which these values are held as well. -/
def holding (values : List Value) (action : EvalM σ α) : EvalM σ α :=
  withReader (values ++ ·) action

/-- Carries out the second evaluation after the first, however that ends. The first one's end
counts, unless the second one stops. -/
def ensuring (action : EvalM σ α) (cleanup : EvalM σ Unit) : EvalM σ α := fun held w =>
  let (result, w) := action held w
  match cleanup held w with
  | (.ok _, w) => (result, w)
  | (.error stop, w) => (.error stop, w)

/-- Releases every object to which no handle is held, and answers how many there were. -/
def reclaim : EvalM σ Nat := do
  let held ← read
  modifyGet fun w =>
    let (count, arena) := w.arena.reclaim (held ++ w.kept)
    (count, { w with arena := arena })

/-- Makes an object with these members, inside the global scope. -/
def newObject (members : List (String × Value)) : EvalM σ ScopeId := do
  let held := members.map (·.2) ++ (← read) ++ (← get).kept
  let scope ← onArena (Arena.newObject held (some Arena.global))
  members.forM fun (name, value) => notifying (Arena.define scope name value)
  return scope

/-- The next word of the random source. -/
def draw : EvalM σ UInt32 :=
  modifyGet fun w =>
    let (word, random) := w.random.next
    (word, { w with random := random })

/-- The items in an order drawn from the random source. -/
def shuffled (items : List α) : EvalM σ (List α) :=
  modifyGet fun w =>
    let (items, random) := w.random.shuffle items
    (items, { w with random := random })

def resolve? (scope : ScopeId) (name : String) : EvalM σ (Option ScopeId) := do
  return (← get).arena.resolve? scope name

def findLocal? (scope : ScopeId) (name : String) : EvalM σ (Option Value) := do
  return (← get).arena.findLocal? scope name

end EvalM

end Fluent

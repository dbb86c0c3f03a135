import Fluent.Catalog
import Fluent.Collection

/-!
# Calling what values stand for

An engine is what an evaluation does not change: the registered handlers, the host's native
functions, and how deeply functions may call one another. This module says what it means to
resolve arguments, to call a function, to initialize a type and to build a view, given what the
expressions involved mean.
-/
namespace Fluent

/-- What an evaluation does not change. -/
structure Engine (σ : Type) where
  registry : Registry σ
  /-- The code of native functions. -/
  native : Function → List (Argument Value) → HostM σ Value
  /-- How deeply functions may call one another. -/
  activations : Nat := 1000000

/-- An evaluation that waits for the scope to take place in. -/
abbrev Deferred (σ α : Type) := ScopeId → EvalM σ α

namespace Engine

variable {σ : Type}

def argumentValues (arguments : List (Argument Value)) : List Value :=
  arguments.map (·.value)

/-- Resolves arguments from left to right, from a number on. -/
def resolveFrom (scope : ScopeId) :
    Nat → List (Argument (Deferred σ Value)) → EvalM σ (List (Argument Value))
  | _, [] => return []
  | index, argument :: rest => do
    modify fun w => { w with arena := w.arena.beginArgument index }
    let value ← argument.value scope
    let values ← EvalM.holding [value] (resolveFrom scope (index + 1) rest)
    return ⟨argument.label, value⟩ :: values

/-- Resolves an argument list. Writes land from left to right, but no argument reads what another
one of the list has written. -/
def resolveArguments (arguments : List (Argument (Deferred σ Value))) :
    Deferred σ (List (Argument Value)) := fun scope => do
  modify fun w => { w with arena := w.arena.openArguments }
  EvalM.ensuring (resolveFrom scope 0 arguments)
    (modify fun w => { w with arena := w.arena.closeArguments })

theorem resolveArguments_nil (scope : ScopeId) :
    resolveArguments ([] : List (Argument (Deferred σ Value))) scope = pure [] := rfl

/-- Evaluates items from left to right. -/
def evaluateItems (scope : ScopeId) : List (Deferred σ Value) → EvalM σ (List Value)
  | [] => return []
  | item :: rest => do
    let value ← item scope
    let values ← EvalM.holding [value] (evaluateItems scope rest)
    return value :: values

/-- Binds the parameters of a function to the arguments of a call. -/
def bindParameters (frame : ScopeId) (parameters : List String)
    (arguments : List (Argument Value)) : EvalM σ Unit :=
  (parameters.zip arguments).forM fun (parameter, argument) =>
    EvalM.notifying (Arena.define frame parameter argument.value)

/-- Calls a function. A body is run, by the first argument, in a scope of its own, which is
released however that ends. -/
def callFunction (engine : Engine σ) (run : Expr → Deferred σ Value) (function : Function)
    (arguments : List (Argument Value)) (receiver : Option ScopeId) : EvalM σ Value :=
  match function.body with
  | .native _ => EvalM.onHost (engine.native function arguments)
  | .expression parameters body closure => do
    if parameters.length ≠ arguments.length then
      EvalM.fail
        (.invalidArguments (.parameters function.name parameters.length arguments.length))
    else
      let parent := (receiver <|> closure).getD Arena.global
      let frame ← EvalM.onArena (Arena.pushFunction parent)
      EvalM.ensuring
        (do
          bindParameters frame parameters arguments
          run body frame)
        (EvalM.onArena (Arena.popFunction frame))

/-- The only argument of an initializer. -/
def singleArgument (type : String) (arguments : List (Argument Value)) :
    Except EvalError Value :=
  match arguments with
  | [argument] => .ok argument.value
  | _ => .error (.unsupported (.single type arguments.length))

/-- The integer of a value: itself, or a double without its fraction, if it fits into 64 bits. -/
def integerOf (value : Value) : Except EvalError Value :=
  match value with
  | .int n => .ok (.int n)
  | .double x =>
    if -9223372036854775808.0 ≤ x && x < 9223372036854775808.0 then .ok (.int x.toInt64)
    else .error (.unsupported (.conversion value.typeName "Int"))
  | _ => .error (.unsupported (.conversion value.typeName "Int"))

/-- The double of a value that is a number. -/
def doubleOf (type : String) (value : Value) : Except EvalError Value :=
  match value.number? with
  | some x => .ok (.double x)
  | none => .error (.unsupported (.conversion value.typeName type))

/-- The name of an image among the arguments it was made with. -/
def imageName? (arguments : List (Argument Value)) : Option Value :=
  Argument.labeled? arguments "systemName" <|> Argument.positional? arguments 0

/-- Calls the initializer of a type. An image is an object around the artifact that the host's
constructor makes. -/
def makeValue (engine : Engine σ) (type : RuntimeType Value) (arguments : List (Argument Value)) :
    EvalM σ Value :=
  match type.builtIn with
  | none => EvalM.fail (.unsupported (.namespaceCall type.name))
  | some .int => EvalM.ofExcept do integerOf (← singleArgument BuiltIn.int.name arguments)
  | some (.double name) => EvalM.ofExcept do doubleOf name (← singleArgument name arguments)
  | some .image => do
    let build ← EvalM.ofExcept (engine.registry.constructorOf BuiltIn.image.name)
    let artifact ← EvalM.onHost (build arguments)
    let name := (imageName? arguments).toList.map fun v => ("name", v)
    let object ← EvalM.newObject (("artifact", .artifact artifact) :: name)
    return .object object
  | some constants => EvalM.fail (.unsupported (.constants constants.fullName))

/-- Resolves the arguments of a call to an initializer, and makes it. -/
def callType (engine : Engine σ) (type : RuntimeType Value)
    (arguments : List (Argument (Deferred σ Value))) : Deferred σ Value := fun scope =>
  EvalM.holding [.type type] do
    let arguments ← resolveArguments arguments scope
    EvalM.holding (argumentValues arguments) (engine.makeValue type arguments)

/-- Applies modifiers in order to an artifact. -/
def applyModifiers (engine : Engine σ) (scope : ScopeId) :
    Artifact Value → List (Call (Deferred σ Value)) → EvalM σ (Artifact Value)
  | artifact, [] => return artifact
  | artifact, modifier :: rest => do
    let decorate ← EvalM.ofExcept (engine.registry.decoratorOf modifier.name)
    let arguments ← EvalM.holding [.artifact artifact] (resolveArguments modifier.arguments scope)
    let artifact ← EvalM.onHost (decorate arguments artifact)
    applyModifiers engine scope artifact rest

/-- Builds the artifact of a chain: constructs it and applies the modifiers in order. The first
failure ends it. -/
def build (engine : Engine σ) (chain : Chain (Deferred σ Value)) :
    Deferred σ (Artifact Value) := fun scope => do
  let construct ← EvalM.ofExcept (engine.registry.constructorOf chain.root.name)
  let arguments ← resolveArguments chain.root.arguments scope
  let artifact ← EvalM.onHost (construct arguments)
  EvalM.holding (argumentValues arguments) (engine.applyModifiers scope artifact chain.modifiers)

end Engine

end Fluent

import Fluent.Chain
import Fluent.Engine

/-!
# Evaluating expressions

What an expression means is put together from what its parts mean. A name or a member also says
which binding it was read from, so that a member function can replace that binding. A call says as
well, where it is a chain, which chain it is: a chain whose root nobody has bound, or a decorated
one whose root is a registered constructor, is built as a view.
-/
namespace Fluent

/-- What an expression means. -/
structure Meaning (σ : Type) where
  /-- The value, and the binding it was read from if it was read from one. -/
  read : Deferred σ (Value × Option Place)
  /-- The chain that the expression is, with what its arguments mean. -/
  chain? : Option (Chain (Deferred σ Value)) := none

/-- The value that the expression evaluates to. -/
def Meaning.value {σ : Type} (m : Meaning σ) : Deferred σ Value := fun scope => do
  return (← m.read scope).1

namespace Engine

variable {σ : Type}

/-- The value of a name, and its binding. -/
def readName (name : String) : Deferred σ (Value × Option Place) := fun scope => do
  let some owner ← EvalM.resolve? scope name | EvalM.fail (.unknownIdentifier name)
  let some value ← EvalM.findLocal? owner name | EvalM.fail (.unknownIdentifier name)
  return (value, some ⟨owner, name⟩)

/-- The member that a value has by its kind: a member of a type, or the size of a collection. -/
def memberValue? : Value → String → Option Value
  | .type t, name => t.members.find? name
  | .array items, "count" => some (.int (Int64.ofNat items.length))
  | .array items, "isEmpty" => some (.bool items.isEmpty)
  | .string s, "count" => some (.int (Int64.ofNat s.length))
  | .string s, "isEmpty" => some (.bool s.isEmpty)
  | _, _ => none

/-- The member that a value has by its kind. What has no such member stays a path, if the whole
expression is one. -/
def readMemberByKind (receiver : Value) (name : String) (whole : Expr) :
    EvalM σ (Value × Option Place) :=
  match memberValue? receiver name with
  | some value => return (value, none)
  | none =>
    match whole.path? with
    | some names => return (.path names, none)
    | none => EvalM.fail (.unsupported (.noMember receiver.typeName name))

/-- The member of a value that has been read. An object's own bindings come first, and a path grows
by the name. -/
def readMemberOf (receiver : Value) (name : String) (whole : Expr) :
    EvalM σ (Value × Option Place) := do
  if let .object object := receiver then
    if let some value ← EvalM.findLocal? object name then
      return (value, some ⟨object, name⟩)
  if let .path names := receiver then
    return (.path (names ++ [name]), none)
  readMemberByKind receiver name whole

/-- The name that an expression is. -/
def plainName? : Expr → Option String
  | .name n => some n
  | _ => none

/-- The member of a base, given what the base means. The member of a name that nobody has bound is
a path. -/
def readMember (base : Expr) (meaning : Meaning σ) (name : String) :
    Deferred σ (Value × Option Place) := fun scope => do
  if let some head := plainName? base then
    if (← EvalM.resolve? scope head).isNone then
      return (.path [head, name], none)
  let (receiver, _) ← meaning.read scope
  readMemberOf receiver name (.member base name)

/-- Resolves the arguments of a call to a function, and makes it. -/
def callResolved (engine : Engine σ) (run : Expr → Deferred σ Value) (function : Function)
    (arguments : List (Argument (Deferred σ Value))) (receiver : Option ScopeId) :
    Deferred σ Value := fun scope => do
  let arguments ← resolveArguments arguments scope
  engine.callFunction run function arguments receiver

/-- The call of what a name is bound to. -/
def callName (engine : Engine σ) (run : Expr → Deferred σ Value) (name : String)
    (arguments : List (Argument (Deferred σ Value))) : Deferred σ Value := fun scope => do
  match (← readName name scope).1 with
  | .function function => engine.callResolved run function arguments none scope
  | .type type => engine.callType type arguments scope
  | _ => EvalM.fail (.unknownFunction name)

/-- The call of what an expression evaluates to. -/
def callValue (engine : Engine σ) (run : Expr → Deferred σ Value) (callee : Expr)
    (meaning : Meaning σ) (arguments : List (Argument (Deferred σ Value))) :
    Deferred σ Value := fun scope => do
  match ← meaning.value scope with
  | .function function => engine.callResolved run function arguments none scope
  | _ => EvalM.fail (.unknownFunction callee.text)

/-- The type that a type has as a member. -/
def nestedType? (receiver : Value) (name : String) : Option (RuntimeType Value) :=
  match receiver with
  | .type t =>
    match t.members.find? name with
    | some (.type nested) => some nested
    | _ => none
  | _ => none

/-- What an object binds under a name. -/
def ownMember? (receiver : Value) (name : String) : EvalM σ (Option (ScopeId × Value)) := do
  match receiver with
  | .object object => return (← EvalM.findLocal? object name).map (object, ·)
  | _ => return none

/-- The call of a registered member function. -/
def callHandler (engine : Engine σ) (receiver : Value) (place : Option Place) (name : String)
    (arguments : List (Argument (Deferred σ Value))) : Deferred σ Value := fun scope => do
  let handler ← EvalM.ofExcept (engine.registry.memberOf name)
  let arguments ← resolveArguments arguments scope
  EvalM.holding (argumentValues arguments) (handler ⟨name, receiver, place, arguments⟩)

/-- The call of a member: the initializer of a type inside a type, a function that the object
binds, or else a registered member function. -/
def callMember (engine : Engine σ) (run : Expr → Deferred σ Value) (base : Meaning σ)
    (name : String) (arguments : List (Argument (Deferred σ Value))) :
    Deferred σ Value := fun scope => do
  let (receiver, place) ← base.read scope
  EvalM.holding [receiver] do
    match nestedType? receiver name with
    | some nested => engine.callType nested arguments scope
    | none =>
      match ← ownMember? receiver name with
      | some (object, .function function) =>
        engine.callResolved run function arguments (some object) scope
      | some (_, other) => EvalM.fail (.notFunction name other.typeName)
      | none => engine.callHandler receiver place name arguments scope

/-- A chain is built as a view if nobody has bound the name of its root, or if it is decorated and
its root is a registered constructor. -/
def isView (engine : Engine σ) (chain : Chain (Deferred σ Value)) : Deferred σ Bool :=
  fun scope => do
    let unbound := (← EvalM.resolve? scope chain.root.name).isNone
    let decorated := !chain.modifiers.isEmpty
    return unbound || (decorated && engine.registry.contains .constructor chain.root.name)

/-- The meaning of a call: a view if it is a chain that is built as one, and else what the second
evaluation gives. -/
def callMeaning (engine : Engine σ) (chain? : Option (Chain (Deferred σ Value)))
    (call : Deferred σ Value) : Meaning σ where
  chain? := chain?
  read scope := do
    if let some chain := chain? then
      if ← engine.isView chain scope then
        return (.artifact (← engine.build chain scope), none)
    return (← call scope, none)

mutual

/-- What an expression means. The second argument runs the bodies of functions. -/
def meaning (engine : Engine σ) (run : Expr → Deferred σ Value) : Expr → Meaning σ
  | .literal l => { read := fun _ => return (.ofLiteral l, none) }
  | .name n => { read := readName n }
  | .implicitMember n => { read := fun _ => return (.path [n], none) }
  | .member base n => { read := readMember base (meaning engine run base) n }
  | .array items =>
    { read := fun scope => do
        return (.array (← evaluateItems scope (itemMeanings engine run items)), none) }
  | .call (.name n) arguments =>
    let arguments := argumentMeanings engine run arguments
    engine.callMeaning (some (.single ⟨n, arguments⟩)) (engine.callName run n arguments)
  | .call (.member base n) arguments =>
    let arguments := argumentMeanings engine run arguments
    let base := meaning engine run base
    engine.callMeaning (base.chain?.map (·.push ⟨n, arguments⟩))
      (engine.callMember run base n arguments)
  | .call (.implicitMember n) _ =>
    engine.callMeaning none fun _ => EvalM.fail (.unsupported (.implicitCall n))
  | .call callee arguments =>
    engine.callMeaning none
      (engine.callValue run callee (meaning engine run callee)
        (argumentMeanings engine run arguments))

/-- What the arguments of a call mean. -/
def argumentMeanings (engine : Engine σ) (run : Expr → Deferred σ Value) :
    List (Argument Expr) → List (Argument (Deferred σ Value))
  | [] => []
  | ⟨label, e⟩ :: rest =>
    ⟨label, (meaning engine run e).value⟩ :: argumentMeanings engine run rest

/-- What the items of an array mean. -/
def itemMeanings (engine : Engine σ) (run : Expr → Deferred σ Value) :
    List Expr → List (Deferred σ Value)
  | [] => []
  | e :: rest => (meaning engine run e).value :: itemMeanings engine run rest

end

/-- Runs the body of a function, in which functions may be called to the given depth. -/
def run (engine : Engine σ) : Nat → Expr → Deferred σ Value
  | 0, _ => fun _ => throw .exhausted
  | depth + 1, body => (engine.meaning (engine.run depth) body).value

def evaluate (engine : Engine σ) (e : Expr) : Deferred σ Value :=
  (engine.meaning (engine.run engine.activations) e).value

def resolve (engine : Engine σ) (arguments : List (Argument Expr)) :
    Deferred σ (List (Argument Value)) :=
  resolveArguments (arguments.map (Argument.map engine.evaluate))

def renderChain (engine : Engine σ) (chain : Chain Expr) : Deferred σ (Artifact Value) :=
  engine.build (chain.map engine.evaluate)

/-- Builds the artifact of an expression that is a chain, in a scope. -/
def render (engine : Engine σ) (e : Expr) : Deferred σ (Artifact Value) := fun scope => do
  match e.toChain with
  | .ok chain => engine.renderChain chain scope
  | .error part => EvalM.fail (.unsupported (.notChain part))

/-- Calls a function in a scope with arguments that are resolved already. -/
def apply (engine : Engine σ) (function : Function) (arguments : List (Argument Value))
    (receiver : Option ScopeId) : EvalM σ Value :=
  engine.callFunction (engine.run engine.activations) function arguments receiver

@[simp] theorem argumentMeanings_eq_map (engine : Engine σ) (run : Expr → Deferred σ Value)
    (arguments : List (Argument Expr)) :
    argumentMeanings engine run arguments =
      arguments.map (Argument.map fun e => (meaning engine run e).value) := by
  induction arguments with
  | nil => simp [argumentMeanings]
  | cons a rest ih => simp [argumentMeanings, ih, Argument.map]

@[simp] theorem itemMeanings_eq_map (engine : Engine σ) (run : Expr → Deferred σ Value)
    (items : List Expr) :
    itemMeanings engine run items = items.map fun e => (meaning engine run e).value := by
  induction items with
  | nil => simp [itemMeanings]
  | cons e rest ih => simp [itemMeanings, ih]

end Engine

end Fluent

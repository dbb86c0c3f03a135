import Fluent.Expr.Printer

/-!
# What evaluation fails with

Every cause of failure is a constructor, and the wording of all of them is one function. A failure
ends the evaluation in which it happens.
-/
namespace Fluent

/-- What a scope belongs to. -/
inductive ScopeKind where
  | global
  /-- One activation of a function. -/
  | function
  /-- The storage of one object. -/
  | object
deriving DecidableEq, Repr

/-- What a registered handler does: it makes a view, changes one, or answers a member call. -/
inductive HandlerKind where
  | constructor
  | decorator
  | member
deriving DecidableEq, Repr

/-- Why an expression means nothing here. -/
inductive Unsupported where
  /-- The expression is not a chain of calls on a plain name. -/
  | notChain (e : Expr)
  /-- A value of the one type has no counterpart in the other. -/
  | conversion (source target : String)
  /-- An initializer takes one argument. -/
  | single (type : String) (count : Nat)
  /-- The type is a namespace without an initializer. -/
  | namespaceCall (type : String)
  /-- The type holds constants only. -/
  | constants (type : String)
  | noMember (type name : String)
  /-- A member without a base is called. -/
  | implicitCall (name : String)
  /-- Only objects can be observed. -/
  | unobservable (kind : ScopeKind)

/-- Why arguments, or the receiver they were given with, are not accepted. -/
inductive Refusal where
  /-- A function has one parameter for each argument. -/
  | parameters (function : String) (expected count : Nat)
  | containsCount (count : Nat)
  | containsText (type : String)
  | notContainer (type : String)
  /-- The member function takes no arguments. -/
  | noArguments (name : String) (count : Nat)
  | notArray (name type : String)
  /-- The receiver was not read from a binding. -/
  | transient (name type : String)
  /-- The modifier changes described views only. -/
  | notDescribed (name : String)
  /-- A handler accepts nothing, or nothing like this. -/
  | refused (name : String) (count : Nat)
deriving DecidableEq, Repr

/-- Why an evaluation fails. -/
inductive EvalError where
  | unsupported (cause : Unsupported)
  | unknownConstructor (name : String)
  | unsupportedModifier (name : String)
  /-- Nothing that can be called has this name. -/
  | unknownFunction (name : String)
  /-- What an object binds under the name is no function. -/
  | notFunction (name type : String)
  | unknownIdentifier (name : String)
  | invalidArguments (cause : Refusal)
  | duplicate (kind : HandlerKind) (name : String)
  /-- The handle's scope was released, or is not one that the operation applies to. -/
  | invalidScope (index : Nat)

namespace ScopeKind

/-- The wording of a kind of scope. -/
def text : ScopeKind → String
  | global => "Global"
  | function => "Function"
  | object => "Instance"

end ScopeKind

namespace HandlerKind

def all : List HandlerKind :=
  [.constructor, decorator, member]

/-- The wording of a kind of handler. -/
def text : HandlerKind → String
  | constructor => "Constructor"
  | decorator => "Decorator"
  | member => "Member function"

end HandlerKind

/-- The wording of a cause. -/
def Unsupported.message : Unsupported → String
  | notChain e =>
    let text := e.text
    s!"`{text}` is not a view construction chain"
  | conversion source target => s!"Cannot convert {source} to {target}"
  | single type count => s!"{type} expects exactly one argument, got {count}"
  | namespaceCall type => s!"{type} cannot be constructed"
  | constants type => s!"{type} is a constant namespace and cannot be constructed"
  | noMember type name => s!"{type} has no member `{name}`"
  | implicitCall name => s!"implicit member `.{name}` cannot be called"
  | unobservable kind =>
    let kind := kind.text
    s!"{kind} scope cannot be observed"

/-- The wording of a cause. -/
def Refusal.message : Refusal → String
  | parameters function expected count =>
    s!"{function} expects {expected} argument(s), got {count}"
  | containsCount count => s!"contains() takes exactly one argument, got {count}"
  | containsText type => s!"String.contains() expects a String, got {type}"
  | notContainer type => s!"contains() requires a container, got {type}"
  | noArguments name count => s!"{name}() takes no arguments, got {count}"
  | notArray name type => s!"{name}() requires an array, got {type}"
  | transient name type => s!"{name}() requires a mutable binding, got a transient {type}"
  | notDescribed name => s!"{name}() can only decorate a described view"
  | refused name count => s!"{name} refused {count} argument(s)"

/-- The wording of an error. -/
def EvalError.message : EvalError → String
  | unsupported cause => "Unsupported expression: " ++ cause.message
  | unknownConstructor name => s!"Unknown constructor: {name}"
  | unsupportedModifier name => s!"Unsupported modifier: {name}"
  | unknownFunction name => s!"Unknown function: {name}"
  | notFunction name type => s!"Unknown function: {name} ({type} is not a function)"
  | unknownIdentifier name => s!"Unknown identifier: {name}"
  | invalidArguments cause => "Invalid arguments: " ++ cause.message
  | duplicate kind name =>
    let kind := kind.text
    s!"{kind} `{name}` is already registered"
  | invalidScope index => s!"Scope #{index} is not live"

end Fluent

import Fluent.Expr
import Fluent.Table

/-!
# Values

What expressions evaluate to. Numbers, truth values, texts and arrays are compared by content.
Artifacts, functions and types are shared: each carries an identity, and two of them are the same
value only if they have the same identity. An object is known by the scope that stores it.
-/
namespace Fluent

/-- A handle to a scope. The generation tells the scopes apart that use one slot after another, as
long as there are at most `2 ^ 32` of them. -/
structure ScopeId where
  index : Nat
  generation : UInt32
deriving DecidableEq, Hashable, Repr, Inhabited

/-- What a function does when it is called. -/
inductive FunctionBody where
  /-- Code of the host, which knows it by this key. -/
  | native (key : String)
  /-- An expression, evaluated in a scope that binds the parameters. The scope's parent is the
  receiving object of a method call, else the closure, else the global scope. -/
  | expression (parameters : List String) (body : Expr) (closure : Option ScopeId)

/-- A function value. -/
structure Function where
  identity : Nat
  name : String
  body : FunctionBody

/-- The types that come with the language. -/
inductive BuiltIn where
  /-- Integers. -/
  | int
  /-- Doubles, which go by two names. -/
  | double (name : String)
  | color
  | font
  | image
  | imageScale
deriving DecidableEq, Repr

/-- A type value: a namespace of constant members, and for a built-in type its initializer. -/
structure RuntimeType (α : Type) where
  identity : Nat
  name : String
  members : Table String α
  builtIn : Option BuiltIn

/-- What an artifact is to those who look into it. -/
inductive Content (α : Type) where
  /-- A view that records how it was made. -/
  | view (chain : Chain α)
  /-- Something of the host's own, of which only a tag is known. -/
  | foreign (tag : String)

/-- Something a host has made. -/
structure Artifact (α : Type) where
  identity : Nat
  content : Content α

/-- A value of the language. -/
inductive Value where
  | int (n : Int64)
  | double (x : Float)
  | bool (b : Bool)
  | string (s : String)
  | array (items : List Value)
  /-- A dotted reference that names no constant. -/
  | path (names : List String)
  | artifact (a : Artifact Value)
  | function (f : Function)
  | type (t : RuntimeType Value)
  | object (scope : ScopeId)
deriving Inhabited

namespace Value

/-- The name of the kind of value. -/
def typeName : Value → String
  | int _ => "Int"
  | double _ => "Double"
  | bool _ => "Bool"
  | string _ => "String"
  | array _ => "Array"
  | path _ => "MemberAccess"
  | artifact _ => "Artifact"
  | function _ => "Function"
  | type _ => "Type"
  | object _ => "Instance"

/-- The value of a literal. -/
def ofLiteral : Literal → Value
  | .integer n => int n
  | .double x => double x
  | .boolean b => bool b
  | .string s => string s

/-- The number that a value stands for. -/
def number? : Value → Option Float
  | int n => some n.toFloat
  | double x => some x
  | _ => none

def string? : Value → Option String
  | string s => some s
  | _ => none

def items? : Value → Option (List Value)
  | array items => some items
  | _ => none

/-- The name that an enumeration-like value carries: the last name of a path, or a text. -/
def symbol? : Value → Option String
  | path names => names.getLast?
  | string s => some s
  | _ => none

def view? : Value → Option (Chain Value)
  | artifact ⟨_, .view chain⟩ => some chain
  | _ => none

mutual

/-- Values of one kind are equal if their content is, or, where they are shared, if they are the
same. Doubles are equal as numbers, so not-a-number differs from itself. -/
def equal : Value → Value → Bool
  | int a, int b => a == b
  | double a, double b => a == b
  | bool a, bool b => a == b
  | string a, string b => a == b
  | array as, array bs => equalItems as bs
  | path a, path b => a == b
  | artifact a, artifact b => a.identity == b.identity
  | function a, function b => a.identity == b.identity
  | type a, type b => a.identity == b.identity
  | object a, object b => a == b
  | _, _ => false

/-- Arrays of one length are equal if their items are. -/
def equalItems : List Value → List Value → Bool
  | [], [] => true
  | a :: as, b :: bs => equal a b && equalItems as bs
  | _, _ => false

end

instance : BEq Value := ⟨equal⟩

end Value

namespace Function

/-- How many parameters the function has; a native one takes what it is given. -/
def arity? (f : Function) : Option Nat :=
  match f.body with
  | .native _ => none
  | .expression parameters _ _ => some parameters.length

end Function

end Fluent

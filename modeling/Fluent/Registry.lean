import Fluent.World

/-!
# The registry of handlers

A registry binds names to handlers, in one table for each kind. A name that is taken is either
kept or given to the later handler, as the registry's policy says.
-/
namespace Fluent

/-- What a member function is called with. -/
structure MemberCall where
  name : String
  receiver : Value
  /-- Where the receiver was read from, if it was read from a binding. -/
  place : Option Place
  arguments : List (Argument Value)

/-- Makes an artifact from arguments. -/
abbrev Constructor (σ : Type) := List (Argument Value) → HostM σ (Artifact Value)

/-- Makes an artifact from arguments and another artifact. -/
abbrev Decorator (σ : Type) := List (Argument Value) → Artifact Value → HostM σ (Artifact Value)

/-- Answers a member call. It may change the arena and draw from the random source. -/
abbrev MemberFunction (σ : Type) := MemberCall → EvalM σ Value

/-- A handler of any kind. -/
inductive Handler (σ : Type) where
  | constructor (f : Constructor σ)
  | decorator (f : Decorator σ)
  | member (f : MemberFunction σ)

/-- The kind of a handler. -/
def Handler.kind {σ : Type} : Handler σ → HandlerKind
  | constructor _ => .constructor
  | decorator _ => .decorator
  | member _ => .member

/-- The handlers of an interpreter, by kind and name. -/
structure Registry (σ : Type) where
  constructors : Table String (Constructor σ) := {}
  decorators : Table String (Decorator σ) := {}
  members : Table String (MemberFunction σ) := {}
  policy : DuplicatePolicy

/-- An action on a registry. An action that fails leaves a state behind as well. -/
abbrev RegistryM (σ : Type) := ExceptT EvalError (StateM (Registry σ))

namespace Registry

variable {σ : Type}

/-- The names under which handlers of a kind are registered, in the order of registration. -/
def registered (r : Registry σ) : HandlerKind → List String
  | .constructor => r.constructors.keys
  | .decorator => r.decorators.keys
  | .member => r.members.keys

/-- A handler of the kind is registered under the name. -/
def contains (r : Registry σ) : HandlerKind → String → Bool
  | .constructor, name => r.constructors.contains name
  | .decorator, name => r.decorators.contains name
  | .member, name => r.members.contains name

def names (r : Registry σ) (kind : HandlerKind) : List String :=
  (r.registered kind).mergeSort (· ≤ ·)

/-- The registry with the handler under the name, whoever had the name before. -/
def put (r : Registry σ) (name : String) : Handler σ → Registry σ
  | .constructor f => { r with constructors := r.constructors.insert name f }
  | .decorator f => { r with decorators := r.decorators.insert name f }
  | .member f => { r with members := r.members.insert name f }

theorem contains_iff (r : Registry σ) (kind : HandlerKind) (name : String) :
    r.contains kind name = true ↔ name ∈ r.registered kind := by
  cases kind <;> exact Table.contains_iff _ _

@[simp] theorem policy_put (r : Registry σ) (name : String) (handler : Handler σ) :
    (r.put name handler).policy = r.policy := by
  cases handler <;> rfl

theorem registered_put (r : Registry σ) (name : String) (handler : Handler σ) :
    (r.put name handler).registered handler.kind =
      if r.contains handler.kind name then r.registered handler.kind
      else r.registered handler.kind ++ [name] := by
  cases handler <;> exact Table.keys_insert _ _ _

theorem registered_put_of_kind_ne (r : Registry σ) (name : String) (handler : Handler σ)
    (kind : HandlerKind) (h : handler.kind ≠ kind) :
    (r.put name handler).registered kind = r.registered kind := by
  cases handler <;> cases kind <;> simp_all [Handler.kind, registered, put]

/-- The constructor of a name. -/
def constructorOf (r : Registry σ) (name : String) : Except EvalError (Constructor σ) :=
  match r.constructors.find? name with
  | some f => .ok f
  | none => .error (.unknownConstructor name)

/-- The decorator of a name. -/
def decoratorOf (r : Registry σ) (name : String) : Except EvalError (Decorator σ) :=
  match r.decorators.find? name with
  | some f => .ok f
  | none => .error (.unsupportedModifier name)

/-- The member function of a name. -/
def memberOf (r : Registry σ) (name : String) : Except EvalError (MemberFunction σ) :=
  match r.members.find? name with
  | some f => .ok f
  | none => .error (.unknownFunction name)

/-- Registers a handler under a name. -/
def register (name : String) (handler : Handler σ) : RegistryM σ Unit := do
  let r ← get
  if r.contains handler.kind name && r.policy = .reject then
    throw (.duplicate handler.kind name)
  set (r.put name handler)

/-- Registers handlers one after the other, up to the first that is rejected. -/
def registerAll (handlers : List (String × Handler σ)) : RegistryM σ Unit :=
  handlers.forM fun (name, handler) => register name handler

end Registry

end Fluent

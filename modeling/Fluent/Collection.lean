import Fluent.Registry

/-!
# Member functions of collections

`contains` looks for an item in an array or for a text in a text, `shuffled` answers the items of
an array in a drawn order, and `shuffle` does so and replaces the binding that the array was read
from.
-/
namespace Fluent

namespace MemberCall

variable {σ : Type}

/-- Writes a value into the binding that the receiver was read from. -/
def writeBack (call : MemberCall) (value : Value) : EvalM σ Unit :=
  match call.place with
  | some place => EvalM.notifying (Arena.assign place.scope place.name value)
  | none =>
    EvalM.fail (.invalidArguments (.transient call.name call.receiver.typeName))

/-- Fails if there is any argument. -/
def expectNoArguments (call : MemberCall) : EvalM σ Unit :=
  if call.arguments.isEmpty then return
  else EvalM.fail (.invalidArguments (.noArguments call.name call.arguments.length))

/-- The items of the receiver, which must be an array. -/
def arrayReceiver (call : MemberCall) : EvalM σ (List Value) :=
  match call.receiver.items? with
  | some items => return items
  | none => EvalM.fail (.invalidArguments (.notArray call.name call.receiver.typeName))

end MemberCall

namespace Collection

variable {σ : Type}

/-- The characters occur one after the other in the text. -/
def occursIn (needle : List Char) : List Char → Bool
  | [] => needle.isEmpty
  | c :: rest => needle.isPrefixOf (c :: rest) || occursIn needle rest

/-- Whether an array has an item, or a text a part, that equals the argument. -/
def contains : MemberFunction σ := fun call =>
  match call.arguments with
  | [argument] =>
    match call.receiver, argument.value with
    | .array items, element => return .bool (items.any (· == element))
    | .string text, .string part => return .bool (occursIn part.toList text.toList)
    | .string _, other => EvalM.fail (.invalidArguments (.containsText other.typeName))
    | other, _ => EvalM.fail (.invalidArguments (.notContainer other.typeName))
  | arguments => EvalM.fail (.invalidArguments (.containsCount arguments.length))

/-- The items of the receiver in a drawn order. -/
def shuffled : MemberFunction σ := fun call => do
  call.expectNoArguments
  let items ← call.arrayReceiver
  return .array (← EvalM.shuffled items)

/-- The items of the receiver in a drawn order, which its binding holds from then on. -/
def shuffle : MemberFunction σ := fun call => do
  let value ← shuffled call
  call.writeBack value
  return value

/-- The member functions that every interpreter has. -/
def handlers : List (String × MemberFunction σ) :=
  [("contains", contains), ("shuffle", shuffle), ("shuffled", shuffled)]

end Collection

/-- A registry with the member functions of collections and nothing else. -/
def Registry.withCollections {σ : Type} (policy : DuplicatePolicy) : Registry σ :=
  { members := .ofList Collection.handlers, policy := policy }

end Fluent

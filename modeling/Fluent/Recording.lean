import Fluent.Registry
import Fluent.Value.Printer

/-!
# The recording host

A host whose artifacts are views that record how they were made: the constructor and its
arguments, and the modifiers with theirs in the order of application.
-/
namespace Fluent

namespace Recording

variable {σ : Type}

def constructor (kind : String) : Constructor σ := fun arguments => do
  let identity ← HostM.fresh
  return ⟨identity, .view (.single ⟨kind, arguments⟩)⟩

/-- Records one more modifier of a view. -/
def decorator (name : String) : Decorator σ := fun arguments artifact => do
  match artifact.content with
  | .view chain =>
    let identity ← HostM.fresh
    return ⟨identity, .view (chain.push ⟨name, arguments⟩)⟩
  | .foreign _ => throw (.invalidArguments (.notDescribed name))

/-- Recording handlers for some views and modifiers. -/
def handlers (views modifiers : List String) : List (String × Handler σ) :=
  views.map (fun kind => (kind, .constructor (constructor kind)))
    ++ modifiers.map (fun name => (name, .decorator (decorator name)))

/-- Registers recording handlers for some views and modifiers. -/
def install (views modifiers : List String) : RegistryM σ Unit :=
  Registry.registerAll (handlers views modifiers)

def defaultViews : List String :=
  ["Text", "Image", "Label", "Button", "VStack", "HStack", "ZStack", "List", "Spacer", "Divider"]

def defaultModifiers : List String :=
  ["font", "bold", "italic", "padding", "frame", "foregroundColor", "background", "cornerRadius",
   "opacity", "resizable", "scaledToFit", "imageScale"]

/-- Registers the views and modifiers of the recording host. -/
def installDefaults : RegistryM σ Unit :=
  install defaultViews defaultModifiers

end Recording

namespace Chain

/-- The text shown by a view such as `Text("hi")`: its first argument without a label. -/
def content? (view : Chain Value) : Option String :=
  (Argument.positional? view.root.arguments 0).bind Value.string?

def modifier? (view : Chain Value) (name : String) : Option (Call Value) :=
  view.modifiers.reverse.find? fun m => m.name == name

/-- The enumeration-like argument of a modifier, such as `title` in `.font(.title)`. -/
def symbol? (view : Chain Value) (modifier : String) : Option String := do
  let m ← view.modifier? modifier
  let v ← Argument.positional? m.arguments 0
  v.symbol?

def children (view : Chain Value) : List (Chain Value) :=
  view.root.arguments.filterMap fun a => a.value.view?

end Chain

end Fluent

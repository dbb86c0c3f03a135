import Fluent.Value

/-!
# The built-in types

Colors, fonts and image scales are namespaces of constants. The numeric types and `Image` have
initializers.
-/
namespace Fluent.BuiltIn

/-- The named colors, each written as its components in base sixteen. -/
def colors : List (String × String) :=
  [("black", "#000000"), ("white", "#FFFFFF"), ("gray", "#8E8E93"), ("red", "#FF3B30"),
   ("orange", "#FF9500"), ("yellow", "#FFCC00"), ("green", "#34C759"), ("mint", "#00C7BE"),
   ("teal", "#30B0C7"), ("cyan", "#32ADE6"), ("blue", "#007AFF"), ("indigo", "#5856D6"),
   ("purple", "#AF52DE"), ("pink", "#FF2D55"), ("brown", "#A2845E"), ("clear", "#00000000")]

/-- The text styles. -/
def fonts : List String :=
  ["largeTitle", "title", "title2", "title3", "headline", "subheadline", "body", "callout",
   "footnote", "caption", "caption2"]

/-- The sizes of an image. -/
def imageScales : List String :=
  ["small", "medium", "large"]

/-- The name of the type. -/
def name : BuiltIn → String
  | int => "Int"
  | double name => name
  | color => "Color"
  | font => "Font"
  | image => "Image"
  | imageScale => "Scale"

/-- The name of the type with that of the type it belongs to. -/
def fullName : BuiltIn → String
  | imageScale => "Image.Scale"
  | type => type.name

/-- Constants that stand for their own names. -/
def symbols (names : List String) : List (String × Value) :=
  names.map fun n => (n, .string n)

/-- The type of image scales, under an identity. -/
def scaleType (identity : Nat) : RuntimeType Value :=
  ⟨identity, name imageScale, .ofList (symbols imageScales), some imageScale⟩

/-- The constant members of the type. A type among them has the identity given. -/
def members (identity : Nat) : BuiltIn → List (String × Value)
  | color => colors.map fun (n, components) => (n, .string components)
  | font => symbols fonts
  | imageScale => symbols imageScales
  | image => [(name imageScale, .type (scaleType identity))]
  | int => []
  | double _ => []

/-- How many identities a type takes. -/
def identities : Nat := 2

/-- The type value, under this identity and the next. -/
def toType (identity : Nat) (b : BuiltIn) : RuntimeType Value :=
  ⟨identity, b.name, .ofList (b.members (identity + 1)), some b⟩

/-- The types that every interpreter has in its global scope. -/
def all : List BuiltIn :=
  [int, double "Double", double "Float", color, font, image]

/-- The bindings of the built-in types, with identities from zero on. -/
def bindings : List (String × Value) :=
  all.mapIdx fun i b => (b.name, .type (b.toType (identities * i)))

end Fluent.BuiltIn

import Fluent.Call

/-!
# Expressions

An expression is a literal, a name, a member of another expression, an implicit member, a call or
an array. There are no statements and no operators.
-/
namespace Fluent

/-- A value written down in source text. -/
inductive Literal where
  | integer (value : Int64)
  | double (value : Float)
  | boolean (value : Bool)
  | string (value : String)
deriving Repr

/-- The tree of one expression. -/
inductive Expr where
  | literal (value : Literal)
  | name (name : String)
  /-- The member `base.name`. -/
  | member (base : Expr) (name : String)
  /-- The member `.name` of a base that is left out. -/
  | implicitMember (name : String)
  | call (callee : Expr) (arguments : List (Argument Expr))
  | array (items : List Expr)
deriving Inhabited

namespace Expr

/-- The names of a dotted path such as `Image.Scale.large`, if the expression is one. -/
def path? : Expr → Option (List String)
  | name n => some [n]
  | member base n => base.path?.map (· ++ [n])
  | _ => none

/-- The dotted path of these names: the first is looked up, the others are members. -/
def ofPath (first : String) (members : List String) : Expr :=
  members.foldl member (name first)

/-- The names of a path are those it was made of. -/
@[simp] theorem path?_ofPath (first : String) (members : List String) :
    (ofPath first members).path? = some (first :: members) := by
  have grow : ∀ (ms : List String) (e : Expr) (ns : List String), e.path? = some ns →
      (ms.foldl member e).path? = some (ns ++ ms) := by
    intro ms
    induction ms with
    | nil => intro e ns h; simpa using h
    | cons m ms ih =>
      intro e ns h
      have := ih (member e m) (ns ++ [m]) (by simp [path?, h])
      simpa using this
  exact grow members (name first) [first] rfl

theorem ofPath_append_singleton (first : String) (members : List String) (last : String) :
    ofPath first (members ++ [last]) = member (ofPath first members) last := by
  simp [ofPath]

end Expr

end Fluent

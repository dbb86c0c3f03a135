import Fluent.Expr

/-!
# Chains in source text

`Name(args).first(args).second(args)` is a chain: a call of a plain name and the modifiers called
on it. Recognising one looks at the shape of the expression only and evaluates nothing.
-/
namespace Fluent

namespace Expr

def isCall : Expr → Bool
  | call .. => true
  | _ => false

/-- The chain that the expression is, or the part of it whose shape no chain has. -/
def toChain : Expr → Except Expr (Chain Expr)
  | call (name n) arguments => .ok (.single ⟨n, arguments⟩)
  | e@(call (member base n) arguments) =>
    if base.isCall then do return (← base.toChain).push ⟨n, arguments⟩ else .error e
  | e => .error e

/-- The name that the chain calls first, if the expression is a chain. -/
def rootName? : Expr → Option String
  | call (name n) _ => some n
  | call (member base _) _ => base.rootName?
  | _ => none

end Expr

namespace Chain

/-- The expression with one more modifier called on it. -/
def extend (e : Expr) (modifier : Call Expr) : Expr :=
  .call (.member e modifier.name) modifier.arguments

/-- The expression that the chain was written as. -/
def toExpr (c : Chain Expr) : Expr :=
  c.modifiers.foldl extend (.call (.name c.root.name) c.root.arguments)

@[simp] theorem toExpr_single (root : Call Expr) :
    (single root).toExpr = .call (.name root.name) root.arguments := rfl

@[simp] theorem toExpr_push (c : Chain Expr) (m : Call Expr) :
    (c.push m).toExpr = extend c.toExpr m := by
  simp [toExpr, push]

theorem toChain_extend (e : Expr) (m : Call Expr) (h : e.isCall = true) :
    (extend e m).toChain = e.toChain.map (·.push m) := by
  cases found : e.toChain <;> simp [extend, Expr.toChain, h, found, Except.map, bind, Except.bind]
  rfl

@[simp] theorem rootName?_extend (e : Expr) (m : Call Expr) :
    (extend e m).rootName? = e.rootName? := by
  simp [extend, Expr.rootName?]

theorem isCall_toExpr (c : Chain Expr) : c.toExpr.isCall = true := by
  obtain ⟨root, modifiers⟩ := c
  rcases modifiers.eq_nil_or_concat with rfl | ⟨before, last, rfl⟩ <;>
    simp [toExpr, extend, Expr.isCall]

end Chain

end Fluent

import Fluent.Proofs.Evaluation.Outcome

/-!
# Building a chain step by step

A chain is recognised as a whole before any of it is evaluated, and its modifiers are applied in a
loop. That is as if the chain without its last modifier were built first and the modifier applied
then, but for one thing: until the last modifier has been applied, the chain holds the arguments
that its root was called with, also if the constructor has dropped them. Objects among them stay
live that long.

Main statements: `Engine.render_extends`, a chain is built modifier by modifier around the root's
arguments; and `Engine.not_render_extends_dropping`, a chain during which it matters that they are
held.
-/
namespace Fluent

namespace EvalM

variable {σ α β : Type}

theorem holding_pure (values : List Value) (v : α) :
    holding values (pure v : EvalM σ α) = pure v := rfl

theorem holding_bind (values : List Value) (x : EvalM σ α) (f : α → EvalM σ β) :
    holding values (x >>= f) = holding values x >>= fun v => holding values (f v) := rfl

theorem holding_nil (x : EvalM σ α) : holding [] x = x := rfl

theorem fail_bind (e : EvalError) (f : α → EvalM σ β) : (fail e : EvalM σ α) >>= f = fail e := rfl

end EvalM

namespace Engine

open EvalM Chain

variable {σ : Type}

/-- Applies one modifier to an artifact: looks the decorator up, resolves the arguments, and lets
the decorator have both. -/
def decorate (engine : Engine σ) (m : Call Expr) (artifact : Artifact Value) :
    Deferred σ (Artifact Value) := fun scope => do
  let decorate ← ofExcept (engine.registry.decoratorOf m.name)
  let arguments ← holding [.artifact artifact] (engine.resolve m.arguments scope)
  onHost (decorate arguments artifact)

/-- Builds the artifact of an expression that is a chain, and answers with it what the root was
called with. -/
def renderKeeping (engine : Engine σ) (e : Expr) : Deferred σ (Artifact Value × List Value) :=
  fun scope => do
    match e.toChain with
    | .ok chain =>
      let construct ← ofExcept (engine.registry.constructorOf chain.root.name)
      let arguments ← engine.resolve chain.root.arguments scope
      let artifact ← onHost (construct arguments)
      let modifiers := chain.modifiers.map (Call.map engine.evaluate)
      let artifact ← holding (argumentValues arguments)
        (engine.applyModifiers scope artifact modifiers)
      return (artifact, argumentValues arguments)
    | .error part => fail (.unsupported (.notChain part))

/-- By induction on the modifiers before it, the last modifier is applied to what they have made of
the artifact. -/
theorem applyModifiers_append_singleton (engine : Engine σ) (scope : ScopeId)
    (modifiers : List (Call Expr)) (m : Call Expr) (artifact : Artifact Value) :
    engine.applyModifiers scope artifact ((modifiers ++ [m]).map (Call.map engine.evaluate)) =
      (do
        let artifact ←
          engine.applyModifiers scope artifact (modifiers.map (Call.map engine.evaluate))
        engine.decorate m artifact scope) := by
  induction modifiers generalizing artifact with
  | nil =>
    simp only [List.nil_append, List.map_cons, List.map_nil, applyModifiers, pure_bind, decorate,
      resolve, Call.map, bind_pure]
  | cons first rest ih =>
    simp only [List.cons_append, List.map_cons, applyModifiers, ih, bind_assoc]

/-- Building a chain keeps the root's arguments, and drops them when it is done. -/
theorem render_eq_renderKeeping (engine : Engine σ) (e : Expr) (scope : ScopeId) :
    engine.render e scope = (do
      let (artifact, _) ← engine.renderKeeping e scope
      return artifact) := by
  cases found : e.toChain with
  | error part => simp only [render, renderKeeping, found, fail_bind]
  | ok chain =>
    simp only [render, renderKeeping, found, renderChain, build, Chain.map, Call.map, resolve,
      bind_assoc, pure_bind, bind_pure]

/-- One more modifier is applied to what the shorter chain has built, while the root's arguments are
held. -/
theorem renderKeeping_extend (engine : Engine σ) {e : Expr} (call : e.isCall = true)
    (m : Call Expr) (scope : ScopeId) :
    engine.renderKeeping (extend e m) scope = (do
      let (artifact, kept) ← engine.renderKeeping e scope
      let artifact ← holding kept (engine.decorate m artifact scope)
      return (artifact, kept)) := by
  have longer := toChain_extend e m call
  cases found : e.toChain with
  | error part => simp only [renderKeeping, longer, found, Except.map, fail_bind]
  | ok chain =>
    simp only [renderKeeping, longer, found, Except.map, root_push, modifiers_push,
      applyModifiers_append_singleton, holding_bind, bind_assoc, pure_bind]

/-- By induction on the modifiers: a chain with more of them applies them one after the other to
what the chain without them has built. -/
theorem renderKeeping_foldl_extend (engine : Engine σ) {e : Expr} (call : e.isCall = true)
    (modifiers : List (Call Expr)) (scope : ScopeId) :
    engine.renderKeeping (modifiers.foldl extend e) scope = (do
      let (artifact, kept) ← engine.renderKeeping e scope
      let artifact ← holding kept
        (modifiers.foldlM (fun artifact m => engine.decorate m artifact scope) artifact)
      return (artifact, kept)) := by
  induction modifiers generalizing e with
  | nil =>
    simp only [List.foldl_nil, List.foldlM_nil, holding_pure, pure_bind]
    exact (bind_pure _).symm
  | cons m rest ih =>
    have longer : (extend e m).isCall = true := rfl
    simp only [List.foldl_cons, ih longer, renderKeeping_extend engine call, List.foldlM_cons,
      holding_bind, bind_assoc, pure_bind]

theorem render_foldl_extend (engine : Engine σ) {e : Expr} (call : e.isCall = true)
    (modifiers : List (Call Expr)) (scope : ScopeId) :
    engine.render (modifiers.foldl extend e) scope = (do
      let (artifact, kept) ← engine.renderKeeping e scope
      holding kept
        (modifiers.foldlM (fun artifact m => engine.decorate m artifact scope) artifact)) := by
  rw [render_eq_renderKeeping, renderKeeping_foldl_extend engine call]
  simp only [bind_assoc, pure_bind, bind_pure]

/-- A chain whose root is called without arguments keeps nothing. -/
theorem renderKeeping_of_no_arguments (engine : Engine σ) {e : Expr} {chain : Chain Expr}
    (shape : e.toChain = .ok chain) (none : chain.root.arguments = []) (scope : ScopeId) :
    engine.renderKeeping e scope = (do return (← engine.render e scope, [])) := by
  simp only [render, renderKeeping, shape, none, renderChain, build, Chain.map, Call.map, resolve,
    List.map_nil, resolveArguments_nil, argumentValues, holding_nil, bind_assoc, pure_bind]

/-- A chain with one more modifier is built by building the chain without it, looking the modifier's
decorator up, resolving its arguments, and applying it, in this order and up to the first that
stops, all that while holding what the root of the chain was called with. So the modifiers of a
chain are applied one by one in the order in which they are written; where the root is called
without arguments, nothing is held; what stops a chain stops every longer one in the same way; and
if the call is no chain, nothing is evaluated with or without the modifier. -/
theorem render_extends (engine : Engine σ) (e : Expr) (call : e.isCall = true) (scope : ScopeId) :
    (engine.render e scope = do
      let (artifact, _) ← engine.renderKeeping e scope
      return artifact) ∧
    (∀ m, engine.render (extend e m) scope = do
      let (artifact, kept) ← engine.renderKeeping e scope
      holding kept (engine.decorate m artifact scope)) ∧
    (∀ modifiers : List (Call Expr), engine.render (modifiers.foldl extend e) scope = do
      let (artifact, kept) ← engine.renderKeeping e scope
      holding kept
        (modifiers.foldlM (fun artifact m => engine.decorate m artifact scope) artifact)) ∧
    (∀ chain, e.toChain = .ok chain → chain.root.arguments = [] →
      ∀ m, engine.render (extend e m) scope = do
        engine.decorate m (← engine.render e scope) scope) ∧
    (∀ held w stop w', (engine.render e scope).on held w = (.error stop, w') →
      ∀ modifiers : List (Call Expr),
        (engine.render (modifiers.foldl extend e) scope).on held w = (.error stop, w')) ∧
    ∀ part, e.toChain = .error part → ∀ m held w,
      (engine.render e scope).on held w =
          (.error (.failed (.unsupported (.notChain part))), w) ∧
        (engine.render (extend e m) scope).on held w =
          (.error (.failed (.unsupported (.notChain part))), w) := by
  have several := fun modifiers => engine.render_foldl_extend call modifiers scope
  have one : ∀ m, engine.render (extend e m) scope = (do
      let (artifact, kept) ← engine.renderKeeping e scope
      holding kept (engine.decorate m artifact scope)) := by
    intro m
    simpa only [List.foldl_cons, List.foldl_nil, List.foldlM_cons, List.foldlM_nil, bind_pure]
      using several [m]
  refine ⟨render_eq_renderKeeping engine e scope, one, several, ?_, ?_, ?_⟩
  · intro chain shape none m
    rw [one, renderKeeping_of_no_arguments engine shape none]
    simp only [bind_assoc, pure_bind, holding_nil]
  · intro held w stop w' stops modifiers
    rw [render_eq_renderKeeping, on_bind] at stops
    rw [several, on_bind]
    generalize (engine.renderKeeping e scope).on held w = ended at stops ⊢
    obtain ⟨_ | ⟨artifact, kept⟩, after⟩ := ended
    · exact stops
    · cases stops
  · intro part shape m held w
    have longer := toChain_extend e m call
    rw [shape] at longer
    simp only [render, shape, longer, Except.map, on_fail, and_self]

/-- A constructor that drops its arguments, a decorator that does nothing, and a member function
that makes an object. -/
def dropping : Engine Unit where
  registry :=
    { constructors := .ofList [("A", fun _ => return ⟨0, .foreign "A"⟩)]
      decorators := .ofList [("m", fun _ artifact => return artifact)]
      members := .ofList [("object", fun _ => return .object (← newObject []))]
      policy := .reject }
  native := fun _ _ => throw (.unknownIdentifier "")
  activations := 1

/-- A world in which nothing is bound. -/
def bareWorld : World Unit :=
  { arena := .ofGlobals .strict [], random := .linear 0, host := { state := () } }

/-- The call of a name on a new object: `name([].object())`. -/
def onObject (name : String) : Call Expr :=
  ⟨name, [⟨none, .call (.member (.array []) "object") []⟩]⟩

/-- `A([].object())`. -/
def rootOnObject : Expr :=
  .call (.name "A") (onObject "A").arguments

/-- If the modifier is applied after the arguments of the root have been dropped, the object among
them is reclaimed when the next one is made, and it is not if the chain is built as one. -/
theorem not_render_extends_dropping :
    ¬ ∀ (engine : Engine Unit) (e : Expr) (m : Call Expr) (scope : ScopeId), e.isCall = true →
      engine.render (extend e m) scope = (do
        engine.decorate m (← engine.render e scope) scope) := by
  intro compositional
  have scopes := congrArg (fun action => (action.on [] bareWorld).2.arena.liveCount)
    (compositional dropping rootOnObject (onObject "m") Arena.global rfl)
  have once : ((dropping.render (extend rootOnObject (onObject "m")) Arena.global).on []
      bareWorld).2.arena.liveCount = 3 := by decide +kernel
  have stepwise : ((do
      dropping.decorate (onObject "m") (← dropping.render rootOnObject Arena.global)
        Arena.global).on [] bareWorld).2.arena.liveCount = 2 := by decide +kernel
  rw [once, stepwise] at scopes
  cases scopes

/-- A modifier that nobody has registered stops the chain before its own arguments and whatever
modifiers follow are looked at: no object is made but the root's. -/
theorem render_extends_unregistered :
    ∃ w, (dropping.render (extend rootOnObject (onObject "n")) Arena.global).on [] bareWorld =
        (.error (.failed (.unsupportedModifier "n")), w) ∧
      (dropping.render ([onObject "n", onObject "m"].foldl extend rootOnObject)
        Arena.global).on [] bareWorld = (.error (.failed (.unsupportedModifier "n")), w) ∧
      w.arena.liveCount = 2 := by
  have stops : (dropping.render (extend rootOnObject (onObject "n")) Arena.global).on [] bareWorld =
      (.error (.failed (.unsupportedModifier "n")),
        ((dropping.render (extend rootOnObject (onObject "n")) Arena.global).on []
          bareWorld).2) := rfl
  obtain ⟨-, -, -, -, longer, -⟩ :=
    render_extends dropping (extend rootOnObject (onObject "n")) rfl Arena.global
  exact ⟨_, stops, longer [] bareWorld _ _ stops [onObject "m"], by decide +kernel⟩

end Engine

end Fluent

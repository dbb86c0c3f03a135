import Mathlib.Data.List.Induction
import Fluent.Proofs.Evaluation.Outcome

/-!
# Which expressions are chains

An expression is recognised as a chain in two places: where its root is asked for, which decides
whether a call is built as a view, and where the chain is taken apart to be built. The first looks
through members of any base, the second through members of calls only. Both know the same chains,
and a chain is taken apart into what it was written with.

Main statements: `Expr.toChain_eq_ok_iff`, the chains are what chains are written as;
`Expr.rootName?_eq_some_iff`, a chain is what has a root; `Engine.on_value_of_handsOver`, what is
built as a view is a chain; and `Engine.chains_recognized`, which says all of it.
-/
namespace Fluent

namespace Chain

/-- What a chain is written as is that chain. -/
theorem toChain_toExpr (chain : Chain Expr) : chain.toExpr.toChain = .ok chain := by
  obtain ⟨root, calls⟩ := chain
  induction calls using List.reverseRecOn with
  | nil => rfl
  | append_singleton shorter last ih =>
    show (Chain.push ⟨root, shorter⟩ last).toExpr.toChain = _
    rw [toExpr_push, toChain_extend _ _ (isCall_toExpr _), ih]
    rfl

/-- The root of what a chain is written as is the root of the chain. -/
theorem rootName?_toExpr (chain : Chain Expr) :
    chain.toExpr.rootName? = some chain.root.name := by
  obtain ⟨root, calls⟩ := chain
  induction calls using List.reverseRecOn with
  | nil => rfl
  | append_singleton shorter last ih =>
    show (Chain.push ⟨root, shorter⟩ last).toExpr.rootName? = _
    rw [toExpr_push, rootName?_extend, ih]

theorem modifiers_ne_nil {chain : Chain Expr}
    (h : ∀ n arguments, chain.toExpr ≠ .call (.name n) arguments) : chain.modifiers ≠ [] := by
  obtain ⟨root, calls⟩ := chain
  rintro rfl
  exact h root.name root.arguments rfl

end Chain

namespace Expr

open Chain

/-- By induction along the recognition: the modifier that is put last was written last. -/
theorem eq_toExpr_of_toChain {e : Expr} {chain : Chain Expr} (h : e.toChain = .ok chain) :
    e = chain.toExpr := by
  fun_induction toChain e generalizing chain with
  | case1 n arguments =>
    cases h
    rfl
  | case2 base n arguments call ih =>
    cases shorter : base.toChain with
    | error part =>
      rw [shorter] at h
      cases h
    | ok inner =>
      rw [shorter] at h
      cases h
      rw [toExpr_push, ← ih shorter]
      rfl
  | case3 => cases h
  | case4 => cases h

/-- The expressions that are recognised as a chain are those that the chain is written as. -/
theorem toChain_eq_ok_iff {e : Expr} {chain : Chain Expr} :
    e.toChain = .ok chain ↔ e = chain.toExpr :=
  ⟨eq_toExpr_of_toChain, fun h => h ▸ toChain_toExpr chain⟩

/-- By induction along the search for the root. It does not ask whether the base of a member is a
call, but it finds no root below anything else. -/
theorem exists_eq_toExpr_of_rootName? {e : Expr} {n : String} (h : e.rootName? = some n) :
    ∃ chain : Chain Expr, e = chain.toExpr := by
  fun_induction rootName? e with
  | case1 m arguments => exact ⟨.single ⟨m, arguments⟩, rfl⟩
  | case2 base m arguments ih =>
    obtain ⟨shorter, rfl⟩ := ih h
    exact ⟨shorter.push ⟨m, arguments⟩, (toExpr_push shorter ⟨m, arguments⟩).symm⟩
  | case3 => cases h

/-- An expression has a root exactly if it is a chain, and then the root is that of the chain. -/
theorem rootName?_eq_some_iff {e : Expr} {n : String} :
    e.rootName? = some n ↔ ∃ chain, e.toChain = .ok chain ∧ chain.root.name = n := by
  constructor
  · intro h
    obtain ⟨chain, rfl⟩ := exists_eq_toExpr_of_rootName? h
    rw [rootName?_toExpr] at h
    exact ⟨chain, toChain_toExpr chain, Option.some.inj h⟩
  · rintro ⟨chain, recognized, rfl⟩
    rw [eq_toExpr_of_toChain recognized, rootName?_toExpr]

end Expr

namespace Engine

open EvalM

variable {σ : Type}

/-- Builds the artifact of an expression that is a chain, where the bodies of functions are run as
the second argument says. -/
def renderWith (engine : Engine σ) (run : Expr → Deferred σ Value) (e : Expr) :
    Deferred σ (Artifact Value) := fun scope =>
  match e.toChain with
  | .ok chain => engine.build (chain.map fun part => (engine.meaning run part).value) scope
  | .error part => fail (.unsupported (.notChain part))

theorem render_eq_renderWith (engine : Engine σ) :
    engine.render = engine.renderWith (engine.run engine.activations) := rfl

/-- An evaluation hands the expression over to be built as a view: it has a root, and the root's
name reads as unbound, or is that of a registered constructor while the expression is more than a
call of it. -/
def HandsOver (engine : Engine σ) (e : Expr) (scope : ScopeId) (a : Arena (σ → σ)) : Prop :=
  ∃ root, e.rootName? = some root ∧
    (a.resolve? scope root = none ∨
      (∀ n arguments, e ≠ .call (.name n) arguments) ∧
        engine.registry.contains .constructor root = true)

/-- What is written as a chain means that chain, or else a call. -/
theorem exists_meaning_toExpr (engine : Engine σ) (run : Expr → Deferred σ Value)
    (chain : Chain Expr) :
    ∃ call, engine.meaning run chain.toExpr =
      engine.callMeaning (some (chain.map fun e => (engine.meaning run e).value)) call := by
  obtain ⟨root, calls⟩ := chain
  induction calls using List.reverseRecOn with
  | nil =>
    refine ⟨engine.callName run root.name (engine.argumentMeanings run root.arguments), ?_⟩
    rw [Chain.toExpr, List.foldl_nil, meaning, argumentMeanings_eq_map]
    rfl
  | append_singleton shorter last ih =>
    obtain ⟨call, inner⟩ := ih
    have longer : (⟨root, shorter ++ [last]⟩ : Chain Expr).toExpr =
        .call (.member (⟨root, shorter⟩ : Chain Expr).toExpr last.name) last.arguments :=
      Chain.toExpr_push ⟨root, shorter⟩ last
    refine ⟨engine.callMember run (engine.meaning run (⟨root, shorter⟩ : Chain Expr).toExpr)
      last.name (engine.argumentMeanings run last.arguments), ?_⟩
    rw [longer, meaning, argumentMeanings_eq_map, inner]
    simp [callMeaning, Chain.map, Call.map, Chain.push]

theorem on_isView (engine : Engine σ) (chain : Chain (Deferred σ Value)) (scope : ScopeId)
    (held : List Value) (w : World σ) :
    (engine.isView chain scope).on held w =
      (.ok ((w.arena.resolve? scope chain.root.name).isNone ||
        !chain.modifiers.isEmpty && engine.registry.contains .constructor chain.root.name), w) :=
  rfl

/-- What is handed over evaluates to what it is rendered as. -/
theorem on_value_of_handsOver (engine : Engine σ) (run : Expr → Deferred σ Value) {e : Expr}
    {scope : ScopeId} {w : World σ} (h : engine.HandsOver e scope w.arena) (held : List Value) :
    ((engine.meaning run e).value scope).on held w =
      (do return Value.artifact (← engine.renderWith run e scope)).on held w := by
  obtain ⟨root, named, view⟩ := h
  obtain ⟨chain, recognized, rfl⟩ := Expr.rootName?_eq_some_iff.1 named
  obtain rfl := Expr.eq_toExpr_of_toChain recognized
  obtain ⟨call, means⟩ := exists_meaning_toExpr engine run chain
  have isView : (engine.isView (chain.map fun e => (engine.meaning run e).value) scope).on held w =
      (.ok true, w) := by
    rw [on_isView]
    obtain unbound | ⟨decorated, registered⟩ := view
    · simp [Chain.map, Call.map, unbound]
    · simp [Chain.map, Call.map, registered, Chain.modifiers_ne_nil decorated]
  simp only [means, Meaning.value, callMeaning, on_bind, isView, renderWith, recognized, if_true,
    on_pure]
  generalize (engine.build _ scope).on held w = ended
  obtain ⟨_ | artifact, after⟩ := ended <;> rfl

/-- What is handed over is a chain, and to render it is to build that. -/
theorem exists_chain_of_handsOver (engine : Engine σ) (run : Expr → Deferred σ Value) {e : Expr}
    {scope : ScopeId} {a : Arena (σ → σ)} (h : engine.HandsOver e scope a) :
    ∃ chain, e.toChain = .ok chain ∧ engine.renderWith run e scope =
      engine.build (chain.map fun part => (engine.meaning run part).value) scope := by
  obtain ⟨root, named, -⟩ := h
  obtain ⟨chain, recognized, -⟩ := Expr.rootName?_eq_some_iff.1 named
  exact ⟨chain, recognized, by simp only [renderWith, recognized]⟩

/-- An expression is recognised as a chain exactly if it is the chain's modifiers called in order on
the call of its root, and every chain is recognised from what it is written as; it has a root
exactly if it is a chain, and then that of the chain. So what an evaluation hands over to be built
as a view, at the top or in the body of a function, is a chain: it is evaluated to what it is
rendered as, and to render it is to build the chain that it is, never to fail because it is none. -/
theorem chains_recognized (engine : Engine σ) (run : Expr → Deferred σ Value) (e : Expr) :
    (∀ chain : Chain Expr, e.toChain = .ok chain ↔
      e = chain.modifiers.foldl (fun shorter m => .call (.member shorter m.name) m.arguments)
        (.call (.name chain.root.name) chain.root.arguments)) ∧
    (∀ chain : Chain Expr, chain.toExpr.toChain = .ok chain) ∧
    (∀ n, e.rootName? = some n ↔ ∃ chain, e.toChain = .ok chain ∧ chain.root.name = n) ∧
    (∀ scope held w, engine.HandsOver e scope w.arena →
      ((engine.meaning run e).value scope).on held w =
        (do return Value.artifact (← engine.renderWith run e scope)).on held w ∧
      ∃ chain, e.toChain = .ok chain ∧ engine.renderWith run e scope =
        engine.build (chain.map fun part => (engine.meaning run part).value) scope) ∧
    ∀ scope held w, engine.HandsOver e scope w.arena →
      (engine.evaluate e scope).on held w =
        (do return Value.artifact (← engine.render e scope)).on held w ∧
      ∃ chain, e.toChain = .ok chain ∧ engine.render e scope = engine.renderChain chain scope := by
  refine ⟨fun chain => Expr.toChain_eq_ok_iff, Chain.toChain_toExpr,
    fun n => Expr.rootName?_eq_some_iff, fun scope held w handed =>
      ⟨on_value_of_handsOver engine run handed held, exists_chain_of_handsOver engine run handed⟩, ?_⟩
  rw [render_eq_renderWith]
  exact fun scope held w handed => ⟨on_value_of_handsOver engine _ handed held,
    exists_chain_of_handsOver engine (engine.run engine.activations) handed⟩

/-- A constructor and a decorator. -/
def decorating : Engine Unit where
  registry :=
    { constructors := .ofList [("Image", fun _ => return ⟨0, .foreign "Image"⟩)]
      decorators := .ofList [("bold", fun _ artifact => return artifact)]
      policy := .reject }
  native := fun _ _ => throw (.unknownIdentifier "")

/-- A world in which the name of the constructor is bound. -/
def imageWorld : World Unit :=
  { arena := .ofGlobals .strict [("Image", .bool true)], random := .linear 0,
    host := { state := () } }

/-- `Image().bold()`. -/
def boldImage : Expr :=
  .call (.member (.call (.name "Image") []) "bold") []

/-- Although somebody has bound the name of its root, the decorated image is handed over, and it
evaluates to the artifact that it is rendered as. -/
theorem chains_recognized_bold_image :
    decorating.HandsOver boldImage Arena.global imageWorld.arena ∧
      ((decorating.evaluate boldImage Arena.global).on [] imageWorld) =
        (do return Value.artifact (← decorating.render boldImage Arena.global)).on [] imageWorld ∧
      ∃ chain, boldImage.toChain = .ok chain ∧ chain.root.name = "Image" := by
  have handed : decorating.HandsOver boldImage Arena.global imageWorld.arena :=
    ⟨"Image", rfl, .inr ⟨by simp [boldImage], by decide⟩⟩
  obtain ⟨-, -, root, -, views⟩ :=
    chains_recognized decorating (decorating.run decorating.activations) boldImage
  exact ⟨handed, (views Arena.global [] imageWorld handed).1, (root "Image").1 rfl⟩

end Engine

end Fluent

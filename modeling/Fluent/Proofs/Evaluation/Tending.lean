import Fluent.Proofs.Arena.Custody
import Fluent.Proofs.Evaluation.Outcome

/-!
# Evaluations tend what they hold

An evaluation holds what it works with until it has put it where somebody else holds it. The rules
here follow the values that an evaluation has in hand, from one action to the next, and say that all
that it does are steps of those who hold them.

Main statements: `Tends.bind`, `Tends.holding` and `Tends.ensuring`, the rules for evaluations made
of others; `tends_newObject`, an object is made of values in hand.
-/
namespace Fluent

open Arena

namespace EvalM

variable {σ α β : Type}

/-- The values that an evaluation has brought, which are none if it has stopped. -/
@[grind]
def brought {ε : Type} (post : α → List Value) : Except ε α → List Value
  | .ok v => post v
  | .error _ => []

/-- All that the evaluation does are steps of those who hold the values `pre` that it has in hand
and the values around it, among which are those of `around`. It ends with the values `post` in hand.
-/
def Tends (around pre : List Value) (action : EvalM σ α) (post : α → List Value) : Prop :=
  ∀ held (w : World σ) made, Covers held around →
    ∃ made', Custody.Steps ⟨w.arena, pre ++ (held ++ w.kept), made⟩
      ⟨(action.on held w).2.arena,
        brought post (action.on held w).1 ++ (held ++ (action.on held w).2.kept), made'⟩

/-- The evaluation makes and reclaims nothing, and all that it does are steps of those who hold the
given values and any others. -/
def Spares (given : List Value) (action : EvalM σ α) : Prop :=
  ∀ held (w : World σ) values made, Covers values given →
    Custody.Steps ⟨w.arena, values, made⟩ ⟨(action.on held w).2.arena, values, made⟩ ∧
      (action.on held w).2.kept = w.kept

variable {around pre given : List Value} {post : α → List Value}

/-- What is not needed any more may be dropped, and what is held around may be taken in hand. -/
theorem Tends.conseq {pre' : List Value} {post' : α → List Value} {x : EvalM σ α}
    (hx : Tends around pre x post) (hpre : Covers (pre' ++ around) pre)
    (hpost : ∀ v, Covers (post v ++ around) (post' v)) : Tends around pre' x post' := by
  intro held w made covered
  obtain ⟨made', steps⟩ := hx held w made covered
  generalize x.on held w = r at steps ⊢
  obtain ⟨result, w'⟩ := r
  have before : Covers (pre' ++ (held ++ w.kept) ++ w.arena.heldValues)
      (pre ++ (held ++ w.kept)) := by grind
  have after : Covers (brought post result ++ (held ++ w'.kept) ++ w'.arena.heldValues)
      (brought post' result ++ (held ++ w'.kept)) := by
    cases result with
    | error stop => exact Covers.left _ _
    | ok v =>
      have taken := hpost v
      grind
  exact ⟨made', (steps.head (.keep _ before)).tail (.keep _ after)⟩

theorem Tends.mono {more : List Value} {x : EvalM σ α} (hx : Tends around pre x post)
    (h : Covers more around) : Tends more pre x post :=
  fun held w made covered => hx held w made (covered.trans h)

theorem Tends.within {more : List Value} {x : EvalM σ α} (hx : Tends around pre x post)
    (h : Covers more (pre ++ around)) : Tends more [] x post := by
  have outer : Covers more around := h.trans (.right _ _)
  exact (hx.mono outer).conseq (h.trans (.left _ _)) fun v => .left _ _

theorem Tends.bind {x : EvalM σ α} {f : α → EvalM σ β} {q : α → List Value}
    {post : β → List Value} (hx : Tends around pre x q) (hf : ∀ v, Tends around (q v) (f v) post) :
    Tends around pre (x >>= f) post := by
  intro held w made covered
  obtain ⟨made', first⟩ := hx held w made covered
  rw [on_bind]
  generalize x.on held w = r at first
  obtain ⟨_ | v, w'⟩ := r
  · exact ⟨made', first⟩
  · obtain ⟨made'', second⟩ := hf v held w' made' covered
    exact ⟨made'', first.trans second⟩

/-- An evaluation that leaves the arena as it is, and answers nothing but what is in hand or read
from the arena. -/
theorem Tends.idle {x : EvalM σ α}
    (unchanged : ∀ held w, (x.on held w).2.arena = w.arena ∧ (x.on held w).2.kept = w.kept)
    (hpost : ∀ held w v, (x.on held w).1 = .ok v →
      Covers (pre ++ around ++ w.arena.heldValues) (post v)) : Tends around pre x post := by
  intro held w made covered
  obtain ⟨arena, kept⟩ := unchanged held w
  have taken := hpost held w
  rw [arena, kept]
  generalize (x.on held w).1 = result at taken
  have after : Covers (pre ++ (held ++ w.kept) ++ w.arena.heldValues)
      (brought post result ++ (held ++ w.kept)) := by
    cases result with
    | error stop => grind
    | ok v =>
      have there := taken v rfl
      grind
  exact ⟨made, .single (.keep _ after)⟩

theorem Tends.pure {v : α} (h : Covers (pre ++ around) (post v)) :
    Tends around pre (Pure.pure v : EvalM σ α) post := by
  refine .idle (fun _ _ => ⟨rfl, rfl⟩) fun held w u answered => ?_
  cases answered
  exact (Covers.left _ _).trans h

theorem Tends.throw (stop : Stop) : Tends around pre (MonadExcept.throw stop : EvalM σ α) post :=
  .idle (fun _ _ => ⟨rfl, rfl⟩) fun _ _ _ answered => by cases answered

theorem Tends.fail (e : EvalError) : Tends around pre (EvalM.fail e : EvalM σ α) post :=
  .throw (.failed e)

theorem Tends.ofExcept {result : Except EvalError α}
    (h : ∀ v, result = .ok v → Covers (pre ++ around) (post v)) :
    Tends around pre (EvalM.ofExcept result : EvalM σ α) post := by
  cases result with
  | error e => exact .fail e
  | ok v => exact .pure (h v rfl)

theorem Tends.bind_ofExcept {result : Except EvalError α} {f : α → EvalM σ β}
    {post : β → List Value} (h : ∀ v, result = .ok v → Tends around pre (f v) post) :
    Tends around pre (EvalM.ofExcept result >>= f) post := by
  cases result with
  | error e => exact .fail e
  | ok v => exact h v rfl

/-- Code of the host works with what is in hand. -/
theorem Tends.onHost {action : HostM σ α}
    (h : ∀ host v, (action.run.run host).1 = .ok v → Covers (pre ++ around) (post v)) :
    Tends around pre (EvalM.onHost action) post := by
  refine .idle (fun held w => ?_) fun held w v answered => ?_
  · rw [on_onHost]
    exact ⟨rfl, rfl⟩
  · rw [on_onHost] at answered
    dsimp only at answered
    cases ended : (action.run.run w.host).1 with
    | error e =>
      rw [ended] at answered
      cases answered
    | ok u =>
      rw [ended] at answered
      cases answered
      exact (Covers.left _ _).trans (h w.host _ ended)

theorem tends_resolve? (scope : ScopeId) (name : String) :
    Tends around pre (EvalM.resolve? scope name : EvalM σ (Option ScopeId)) fun _ => pre :=
  .idle (fun _ _ => ⟨rfl, rfl⟩) fun _ _ _ _ => by grind

/-- What is read is in hand. -/
theorem tends_findLocal? (scope : ScopeId) (name : String) :
    Tends around pre (EvalM.findLocal? scope name : EvalM σ (Option Value)) fun found =>
      found.toList ++ pre := by
  refine .idle (fun _ _ => ⟨rfl, rfl⟩) fun held w found answered => ?_
  rw [on_findLocal?] at answered
  cases answered
  cases read : w.arena.findLocal? scope name with
  | none =>
    simp only [Option.toList]
    grind
  | some v =>
    have stored := covers_findLocal? read
    simp only [Option.toList]
    grind

/-- Values are held around an evaluation, and in hand before and after it. -/
theorem Tends.holding {values : List Value} {x : EvalM σ α}
    (hx : Tends (values ++ around) pre x post) :
    Tends around (values ++ pre) (EvalM.holding values x) fun v => values ++ post v := by
  intro held w made covered
  have inner : Covers (values ++ held) (values ++ around) := by grind
  obtain ⟨made', steps⟩ := hx (values ++ held) w made inner
  rw [on_holding]
  generalize x.on (values ++ held) w = r at steps ⊢
  obtain ⟨result, w'⟩ := r
  have before : Covers (values ++ pre ++ (held ++ w.kept) ++ w.arena.heldValues)
      (pre ++ (values ++ held ++ w.kept)) := by grind
  have after : Covers (brought post result ++ (values ++ held ++ w'.kept) ++ w'.arena.heldValues)
      (brought (fun v => values ++ post v) result ++ (held ++ w'.kept)) := by
    cases result with
    | error stop => grind
    | ok v => grind
  exact ⟨made', (steps.head (.keep _ before)).tail (.keep _ after)⟩

/-- An evaluation that spares what is held leaves in hand what is. -/
theorem Spares.tends {x : EvalM σ α} (hx : Spares given x) (h : Covers (pre ++ around) given) :
    Tends around pre x fun _ => pre := by
  intro held w made covered
  have known : Covers (pre ++ (held ++ w.kept)) given := by grind
  obtain ⟨steps, kept⟩ := hx held w (pre ++ (held ++ w.kept)) made known
  rw [kept]
  refine ⟨made, steps.tail (.keep _ ?_)⟩
  cases (x.on held w).1 with
  | error stop => grind
  | ok v => grind

theorem Spares.bind {x : EvalM σ α} {f : α → EvalM σ β} (hx : Spares given x)
    (hf : ∀ v, Spares given (f v)) : Spares given (x >>= f) := by
  intro held w values made covered
  obtain ⟨first, kept⟩ := hx held w values made covered
  rw [on_bind]
  generalize x.on held w = r at first kept
  obtain ⟨_ | v, w'⟩ := r
  · exact ⟨first, kept⟩
  · obtain ⟨second, kept'⟩ := hf v held w' values made covered
    exact ⟨first.trans second, kept'.trans kept⟩

/-- What is done in the end takes nothing out of anybody's hands. -/
theorem Tends.ensuring {x : EvalM σ α} {cleanup : EvalM σ Unit} (hx : Tends around pre x post)
    (hc : Spares [] cleanup) : Tends around pre (EvalM.ensuring x cleanup) post := by
  intro held w made covered
  obtain ⟨made', first⟩ := hx held w made covered
  rw [on_ensuring]
  generalize x.on held w = r at first ⊢
  obtain ⟨result, w₁⟩ := r
  dsimp only at first ⊢
  obtain ⟨second, kept⟩ :=
    hc held w₁ (brought post result ++ (held ++ w₁.kept)) made' (covers_nil _)
  generalize cleanup.on held w₁ = r at second kept ⊢
  obtain ⟨ended, w₂⟩ := r
  dsimp only at second kept
  cases ended with
  | ok _ =>
    dsimp only
    rw [kept]
    exact ⟨made', first.trans second⟩
  | error stop =>
    have dropped : Covers (brought post result ++ (held ++ w₁.kept) ++ w₂.arena.heldValues)
        (held ++ w₁.kept) := by grind
    dsimp only
    rw [kept]
    exact ⟨made', (first.trans second).tail (.keep _ dropped)⟩

theorem Spares.mono {more : List Value} {x : EvalM σ α} (hx : Spares given x)
    (h : Covers more given) : Spares more x :=
  fun held w values made covered => hx held w values made (covered.trans h)

/-- An operation on the arena that makes nothing is a step of whoever holds what it is given. -/
theorem Spares.operate {x : EvalM σ α} (op : Operation (σ → σ))
    (draws : ∀ values, Covers values given → op.Draws values)
    (same : ∀ held w, (x.on held w).2.arena = op.after w.arena ∧ (x.on held w).2.kept = w.kept) :
    Spares given x := by
  intro held w values made covered
  obtain ⟨arena, kept⟩ := same held w
  rw [arena]
  exact ⟨.single (.operate op (draws values covered)), kept⟩

theorem spares_openArguments :
    Spares [] (modify fun w => { w with arena := w.arena.openArguments } : EvalM σ PUnit) :=
  .operate .openArguments (fun _ _ => trivial) fun _ _ => ⟨rfl, rfl⟩

theorem spares_beginArgument (index : Nat) :
    Spares [] (modify fun w => { w with arena := w.arena.beginArgument index } : EvalM σ PUnit) :=
  .operate (.beginArgument index) (fun _ _ => trivial) fun _ _ => ⟨rfl, rfl⟩

theorem spares_closeArguments :
    Spares [] (modify fun w => { w with arena := w.arena.closeArguments } : EvalM σ PUnit) :=
  .operate .closeArguments (fun _ _ => trivial) fun _ _ => ⟨rfl, rfl⟩

theorem spares_pushFunction (parent : ScopeId) :
    Spares [] (onArena (pushFunction parent) : EvalM σ ScopeId) := by
  refine .operate (.pushFunction parent) (fun _ _ => trivial) fun held w => ?_
  rw [on_onArena, Operation.after, Operation.perform, Operation.snd_on_forget]
  exact ⟨rfl, rfl⟩

theorem spares_popFunction (frame : ScopeId) :
    Spares [] (onArena (popFunction frame) : EvalM σ Unit) := by
  refine .operate (.popFunction frame) (fun _ _ => trivial) fun held w => ?_
  rw [on_onArena, Operation.after, Operation.perform, Operation.snd_on_forget]
  exact ⟨rfl, rfl⟩

theorem arena_notifying (action : ArenaM (σ → σ) (List (σ → σ))) (held : List Value) (w : World σ) :
    ((notifying action).on held w).2.arena = (action.on w.arena).2 ∧
      ((notifying action).on held w).2.kept = w.kept := by
  rw [on_notifying]
  generalize action.on w.arena = r
  obtain ⟨_ | observers, a⟩ := r <;> exact ⟨rfl, rfl⟩

theorem spares_define (scope : ScopeId) (name : String) (value : Value) :
    Spares [value] (notifying (define scope name value) : EvalM σ Unit) :=
  .operate (.define scope name value) (fun _ covered => covered) fun held w =>
    arena_notifying _ held w

theorem spares_assign (scope : ScopeId) (name : String) (value : Value) :
    Spares [value] (notifying (assign scope name value) : EvalM σ Unit) :=
  .operate (.assign scope name value) (fun _ covered => covered) fun held w =>
    arena_notifying _ held w

theorem spares_forM_define (scope : ScopeId) (items : List β) (name : β → String)
    (value : β → Value) :
    Spares (items.map value) (items.forM fun item =>
      notifying (define scope (name item) (value item)) : EvalM σ Unit) := by
  induction items with
  | nil => exact fun _ _ _ _ _ => ⟨.refl, rfl⟩
  | cons item rest ih =>
    have first := spares_define (σ := σ) scope (name item) (value item)
    have head : Covers ((item :: rest).map value) [value item] := by
      rw [List.map_cons]
      grind
    have tail : Covers ((item :: rest).map value) (rest.map value) := by
      rw [List.map_cons]
      grind
    exact (first.mono head).bind fun _ => ih.mono tail

/-- An object that is made while values are in hand is in hand besides. -/
theorem Tends.makeObject {values : List Value} {x : EvalM σ α} {f : ScopeId → EvalM σ α}
    (same : ∀ held w, x.on held w =
      (onArena (Arena.newObject (values ++ held ++ w.kept) (some global)) >>= f).on held w)
    (hf : ∀ object, Tends around (.object object :: values) (f object) post) :
    Tends around values x post := by
  intro held w made covered
  rw [same, on_bind, on_onArena, List.append_assoc]
  have answer := Arena.on_newObject w.arena (values ++ (held ++ w.kept)) (some global)
  split at answer
  · rw [answer]
    have first := Custody.Step.newObject (c := ⟨w.arena, values ++ (held ++ w.kept), made⟩)
      (some global) answer
    obtain ⟨made', rest⟩ := hf _ held { w with arena := _ } _ covered
    exact ⟨made', rest.head first⟩
  · rw [answer]
    have dropped : Covers (values ++ (held ++ w.kept) ++ w.arena.heldValues) (held ++ w.kept) := by
      grind
    exact ⟨made, .single (.keep _ dropped)⟩

/-- The members of a new object are held until it holds them itself, and then it is in hand. -/
theorem tends_newObject (around : List Value) (members : List (String × Value)) :
    Tends around (members.map Prod.snd) (EvalM.newObject members : EvalM σ ScopeId) fun object =>
      [.object object] := by
  refine .makeObject (f := fun object =>
    (members.forM fun member => notifying (define object member.1 member.2)) >>= fun _ =>
      pure object) (fun held w => ?_) fun object => ?_
  · simp only [EvalM.newObject, on_bind, on_read, on_get]
  · have filled := spares_forM_define (σ := σ) object members Prod.fst Prod.snd
    have given : Covers (.object object :: members.map Prod.snd ++ around)
        (members.map Prod.snd) := by grind
    exact .bind (filled.tends given) fun _ => .pure (by grind)

end EvalM

end Fluent

import Fluent.Evaluation
import Fluent.Proofs.Arena.Operation

/-!
# The outcome of evaluations

What an evaluation ends with, and the world that it leaves behind, for each of the actions of which
evaluations are made.
-/
namespace Fluent

/-- Induction along the meaning of an expression, with a case for each kind of callee. -/
@[elab_as_elim]
theorem Expr.meaning_induction {motive : Expr → Prop}
    (literal : ∀ l, motive (.literal l)) (name : ∀ n, motive (.name n))
    (implicitMember : ∀ n, motive (.implicitMember n))
    (member : ∀ base n, motive base → motive (.member base n))
    (array : ∀ items, (∀ e ∈ items, motive e) → motive (.array items))
    (callName : ∀ n (arguments : List (Argument Expr)), (∀ a ∈ arguments, motive a.value) →
      motive (.call (.name n) arguments))
    (callMember : ∀ base n (arguments : List (Argument Expr)), motive base →
      (∀ a ∈ arguments, motive a.value) → motive (.call (.member base n) arguments))
    (callImplicit : ∀ n arguments, motive (.call (.implicitMember n) arguments))
    (callValue : ∀ callee (arguments : List (Argument Expr)), (∀ n, callee ≠ .name n) →
      (∀ base n, callee ≠ .member base n) → (∀ n, callee ≠ .implicitMember n) → motive callee →
      (∀ a ∈ arguments, motive a.value) → motive (.call callee arguments)) :
    ∀ e, motive e := by
  have smaller : ∀ (arguments : List (Argument Expr)) (a : Argument Expr), a ∈ arguments →
      sizeOf a.value < sizeOf arguments := by
    intro arguments a ha
    have hlt := List.sizeOf_lt_of_mem ha
    obtain ⟨label, value⟩ := a
    simp only [Argument.mk.sizeOf_spec] at hlt
    show sizeOf value < _
    omega
  intro e
  induction hsize : sizeOf e using Nat.strongRecOn generalizing e with
  | ind size ih =>
    have part : ∀ part : Expr, sizeOf part < sizeOf e → motive part :=
      fun part hlt => ih (sizeOf part) (hsize ▸ hlt) part rfl
    cases e with
    | literal l => exact literal l
    | name n => exact name n
    | implicitMember n => exact implicitMember n
    | member base n => exact member base n (part base (by simp only [Expr.member.sizeOf_spec]; omega))
    | array items =>
      refine array items fun item hitem => part item ?_
      have hlt := List.sizeOf_lt_of_mem hitem
      simp only [Expr.array.sizeOf_spec]
      omega
    | call callee arguments =>
      have values : ∀ a ∈ arguments, motive a.value := by
        intro a ha
        have hlt := smaller arguments a ha
        refine part a.value ?_
        simp only [Expr.call.sizeOf_spec]
        omega
      have called : motive callee := by
        refine part callee ?_
        simp only [Expr.call.sizeOf_spec]
        omega
      cases callee with
      | name n => exact callName n arguments values
      | member base n =>
        refine callMember base n arguments (part base ?_) values
        simp only [Expr.call.sizeOf_spec, Expr.member.sizeOf_spec]
        omega
      | implicitMember n => exact callImplicit n arguments
      | literal l => exact callValue _ arguments (by simp) (by simp) (by simp) called values
      | array items => exact callValue _ arguments (by simp) (by simp) (by simp) called values
      | call inner rest => exact callValue _ arguments (by simp) (by simp) (by simp) called values

theorem Chain.mem_push {α : Type} {c : Chain α} {m call : Call α} :
    call ∈ (c.push m).root :: (c.push m).modifiers ↔ call ∈ c.root :: c.modifiers ∨ call = m := by
  rw [Chain.root_push, Chain.modifiers_push, ← List.cons_append, List.mem_append,
    List.mem_singleton]

/-- What an argument means is what its expression means. -/
theorem Engine.exists_of_mem_argumentMeanings {σ : Type} {engine : Engine σ}
    {run : Expr → Deferred σ Value} {arguments : List (Argument Expr)}
    {argument : Argument (Deferred σ Value)} (h : argument ∈ engine.argumentMeanings run arguments) :
    ∃ written ∈ arguments, argument.value = (engine.meaning run written.value).value := by
  rw [argumentMeanings_eq_map] at h
  obtain ⟨written, hw, rfl⟩ := List.mem_map.1 h
  exact ⟨written, hw, rfl⟩

namespace EvalM

variable {σ α β : Type}

/-- What an evaluation ends with around which these values are held, and the world that it leaves
behind. -/
def on (action : EvalM σ α) (held : List Value) (w : World σ) : Except Stop α × World σ :=
  (action.run held).run.run w

theorem on_bind (x : EvalM σ α) (f : α → EvalM σ β) (held : List Value) (w : World σ) :
    (x >>= f).on held w = match x.on held w with
      | (.ok v, w) => (f v).on held w
      | (.error stop, w) => (.error stop, w) := by
  simp only [on, ReaderT.run_bind, ExceptT.run_bind, StateT.run_bind]
  generalize StateT.run (x.run held).run w = r
  obtain ⟨_ | v, w⟩ := r <;> rfl

theorem on_bind_of_ok {x : EvalM σ α} {f : α → EvalM σ β} {held : List Value} {w w' : World σ}
    {v : α} (h : x.on held w = (.ok v, w')) : (x >>= f).on held w = (f v).on held w' := by
  rw [on_bind, h]

/-- What ends with a value has got through its first step. -/
theorem exists_of_on_bind {x : EvalM σ α} {f : α → EvalM σ β} {held : List Value} {w w' : World σ}
    {v : β} (h : (x >>= f).on held w = (.ok v, w')) :
    ∃ u w₁, x.on held w = (.ok u, w₁) ∧ (f u).on held w₁ = (.ok v, w') := by
  rw [on_bind] at h
  generalize x.on held w = r at h
  obtain ⟨_ | u, w₁⟩ := r
  · cases h
  · exact ⟨u, w₁, rfl, h⟩

@[simp] theorem on_pure (v : α) (held : List Value) (w : World σ) :
    (pure v : EvalM σ α).on held w = (.ok v, w) := rfl

@[simp] theorem on_throw (stop : Stop) (held : List Value) (w : World σ) :
    (throw stop : EvalM σ α).on held w = (.error stop, w) := rfl

@[simp] theorem on_fail (e : EvalError) (held : List Value) (w : World σ) :
    (fail e : EvalM σ α).on held w = (.error (.failed e), w) := rfl

@[simp] theorem on_get (held : List Value) (w : World σ) :
    (get : EvalM σ (World σ)).on held w = (.ok w, w) := rfl

@[simp] theorem on_read (held : List Value) (w : World σ) :
    (read : EvalM σ (List Value)).on held w = (.ok held, w) := rfl

@[simp] theorem on_modify (f : World σ → World σ) (held : List Value) (w : World σ) :
    (modify f : EvalM σ PUnit).on held w = (.ok ⟨⟩, f w) := rfl

@[simp] theorem on_ofExcept (result : Except EvalError α) (held : List Value) (w : World σ) :
    (ofExcept result).on held w = (result.mapError .failed, w) := by
  cases result <;> rfl

theorem on_onArena (action : ArenaM (σ → σ) α) (held : List Value) (w : World σ) :
    (onArena action).on held w =
      ((action.on w.arena).1.mapError .failed, { w with arena := (action.on w.arena).2 }) := by
  show (ofExcept (action.on w.arena).1).on held { w with arena := (action.on w.arena).2 } = _
  rw [on_ofExcept]

theorem on_onArena_ok {action : ArenaM (σ → σ) α} {w : World σ} {v : α} {a : Arena (σ → σ)}
    (h : action.on w.arena = (.ok v, a)) (held : List Value) :
    (onArena action).on held w = (.ok v, { w with arena := a }) := by
  rw [on_onArena, h]
  rfl

theorem on_onArena_error {action : ArenaM (σ → σ) α} {w : World σ} {e : EvalError}
    {a : Arena (σ → σ)} (h : action.on w.arena = (.error e, a)) (held : List Value) :
    (onArena action).on held w = (.error (.failed e), { w with arena := a }) := by
  rw [on_onArena, h]
  rfl

theorem on_onHost (action : HostM σ α) (held : List Value) (w : World σ) :
    (onHost action).on held w =
      ((action.run.run w.host).1.mapError .failed, { w with host := (action.run.run w.host).2 }) := by
  show (ofExcept (action.run.run w.host).1).on held { w with host := (action.run.run w.host).2 } = _
  rw [on_ofExcept]

def notified (w : World σ) (observers : List (σ → σ)) : World σ :=
  { w with host := { w.host with state := observers.foldl (fun s f => f s) w.host.state } }

/-- A write calls observers, which change the host's state alone. -/
theorem on_notifying (action : ArenaM (σ → σ) (List (σ → σ))) (held : List Value) (w : World σ) :
    (notifying action).on held w = match action.on w.arena with
      | (.ok observers, a) => (.ok (), notified { w with arena := a } observers)
      | (.error e, a) => (.error (.failed e), { w with arena := a }) := by
  rw [notifying, on_bind, on_onArena]
  generalize action.on w.arena = r
  obtain ⟨_ | observers, a⟩ := r <;> rfl

@[simp] theorem on_holding (values : List Value) (action : EvalM σ α) (held : List Value)
    (w : World σ) : (holding values action).on held w = action.on (values ++ held) w := rfl

theorem on_ensuring (action : EvalM σ α) (cleanup : EvalM σ Unit) (held : List Value)
    (w : World σ) :
    (ensuring action cleanup).on held w = match cleanup.on held (action.on held w).2 with
      | (.ok _, w') => ((action.on held w).1, w')
      | (.error stop, w') => (.error stop, w') := rfl

@[simp] theorem on_resolve? (scope : ScopeId) (name : String) (held : List Value) (w : World σ) :
    (resolve? scope name).on held w = (.ok (w.arena.resolve? scope name), w) := rfl

@[simp] theorem on_findLocal? (scope : ScopeId) (name : String) (held : List Value)
    (w : World σ) : (findLocal? scope name).on held w = (.ok (w.arena.findLocal? scope name), w) :=
  rfl

@[simp] theorem on_shuffled (items : List α) (held : List Value) (w : World σ) :
    (shuffled items).on held w =
      (.ok (w.random.shuffle items).1, { w with random := (w.random.shuffle items).2 }) := rfl

end EvalM

end Fluent

import Fluent.Proofs.Evaluation.Acting

/-!
# What every evaluation leaves behind

An evaluation is an activity, so it leaves behind what activities do, whether it succeeds or fails.

Main statements: `evaluations_disciplined`, an evaluation closes the argument lists that it opens and
releases the function scopes that it makes; `evaluations_rearrange`, and it can only permute arrays.
-/
namespace Fluent

open Arena

namespace Arena

variable {ο : Type}

/-- Lists and function scopes are after an evaluation as they were before it. -/
structure Disciplined (a b : Arena ο) : Prop where
  /-- The same argument lists are open, opened at the same times, and at the same arguments. -/
  lists : b.openLists = a.openLists
  /-- The function scopes that were live are live, and no others, so what was made is released. -/
  functions : ∀ id, b.activation? id = a.activation? id
  /-- What is live was there, or it is a new object. -/
  objects : ∀ id t, b.scope? id = some t →
    (∃ s, a.scope? id = some s ∧ s.created = t.created ∧ s.kind = t.kind) ∨
      (a.clock < t.created ∧ t.kind = .object)
  /-- The free list names every slot that is empty, and none of them twice, so that nothing is
  released twice. -/
  released : b.free.Nodup ∧
    ∀ i : Nat, i ∈ b.free ↔ ∃ generation, b.slots[i]? = some ⟨generation, none⟩
  reachable : b.Reachable

theorem Activity.disciplined {objects : Prop} {a b : Arena ο} (h : Activity objects false a b)
    (reachable : a.Reachable) : Disciplined a b := by
  have wf := reachable.wellFormed
  have wfb := h.wellFormed wf
  refine ⟨h.openLists_eq, h.activation?_eq wf, ?_, ⟨wfb.free_nodup, wfb.free_iff⟩,
    h.reachable reachable⟩
  intro id t there
  by_cases older : t.created ≤ a.clock
  · obtain ⟨s, here, created, kind, _⟩ := h.conserves wf id t there older
    exact .inl ⟨s, here, created, kind⟩
  · refine .inr ⟨by omega, ?_⟩
    cases hk : t.kind with
    | object => rfl
    | function =>
      have active := (b.activation?_eq_some_iff id t.created).2 ⟨t, there, hk, rfl⟩
      rw [h.activation?_eq wf, activation?_eq_some_iff] at active
      obtain ⟨s, here, _, created⟩ := active
      have known := wf.created_le id s here
      omega
    | global =>
      obtain rfl := wfb.global_unique id t there hk
      obtain ⟨g, live, _, created⟩ := wfb.global_live
      rw [there] at live
      cases live
      omega

/-- The scopes that are live in both arenas bind the same names, each to the same value or to an
array of the same items, and they are of the same kind and inside the same scope. A handle is to the
same scope if that was made at the same time, and it always is before generations come round. -/
def Rearranges (a b : Arena ο) : Prop :=
  ∀ id s t, a.scope? id = some s → b.scope? id = some t →
    t.created = s.created ∨ b.clock + 1 < 2 ^ 32 →
    t.kind = s.kind ∧ t.parent = s.parent ∧
      (∀ name, t.bindings.contains name = s.bindings.contains name) ∧
      ∀ name, Value.Rearranged (s.bindings.find? name) (t.bindings.find? name)

theorem Activity.rearranges {objects : Prop} {a b : Arena ο} (h : Activity objects false a b)
    (wf : a.WellFormed) (closed : a.journal = []) : Rearranges a b := by
  intro id s t before after same
  have created : t.created = s.created := by
    obtain equal | few := same
    · exact equal
    · exact h.created_eq wf few before after
  have older : t.created ≤ a.clock := created ▸ wf.created_le id s before
  obtain ⟨known, here, _, kind, parent, keep⟩ := h.conserves wf id t after older
  rw [before] at here
  cases here
  have bindings : ∀ name, Value.Rearranged (s.bindings.find? name) (t.bindings.find? name) := by
    intro name
    have stored : a.Every (Value.Rearranged (s.bindings.find? name)) ⟨id, name⟩ := by
      refine ⟨?_, by simp [closed]⟩
      simp only [stored?, before, Option.bind_some]
      exact .refl _
    have kept := (keep name _ (upToOrder_rearranged _) stored).1
    simpa only [stored?, after, Option.bind_some] using kept
  refine ⟨kind.symm, parent.symm, fun name => ?_, bindings⟩
  unfold Table.contains
  obtain equal | ⟨xs, ys, hs, ht, _⟩ := bindings name
  · rw [equal]
  · rw [hs, ht]
    rfl

end Arena

namespace Engine

open EvalM

variable {σ : Type}

/-- Whether an evaluation succeeds or fails, it leaves open what was open and nothing else, releases
every function scope that it makes, and leaves no new scope but objects. The scope of a call is
always there to be released at the end of the call, so that the end of the body counts. -/
theorem evaluations_disciplined (engine : Engine σ) (members : engine.HasBuiltInMembers)
    (held : List Value) (w : World σ) (reachable : w.arena.Reachable) :
    (∀ e scope, Disciplined w.arena ((engine.evaluate e scope).on held w).2.arena) ∧
    (∀ e scope, Disciplined w.arena ((engine.render e scope).on held w).2.arena) ∧
    (∀ arguments scope, Disciplined w.arena ((engine.resolve arguments scope).on held w).2.arena) ∧
    (∀ function arguments receiver,
      Disciplined w.arena ((engine.apply function arguments receiver).on held w).2.arena) ∧
    ∀ (depth : Nat) (function : Function) (parameters : List String) (body : Expr)
      (closure receiver : Option ScopeId) (arguments : List (Argument Value)) (frame : ScopeId)
      (opened : Arena (σ → σ)) (result : Except Stop Value) (ended : World σ),
      function.body = .expression parameters body closure →
      parameters.length = arguments.length →
      (pushFunction ((receiver <|> closure).getD global)).on w.arena = (.ok frame, opened) →
      (do
        bindParameters frame parameters arguments
        engine.run depth body frame : EvalM σ Value).on held { w with arena := opened } =
          (result, ended) →
      (popFunction frame).on ended.arena = (.ok (), ended.arena.release frame.index) ∧
        (engine.callFunction (engine.run depth) function arguments receiver).on held w =
          (result, { ended with arena := ended.arena.release frame.index }) := by
  have wf := reachable.wellFormed
  refine ⟨fun e scope => ?_, fun e scope => ?_, fun arguments scope => ?_,
    fun function arguments receiver => ?_, ?_⟩
  · exact (engine.acting_evaluate members e scope held w wf trivial).1.disciplined reachable
  · exact (engine.acting_render members e scope held w wf trivial).1.disciplined reachable
  · exact (engine.acting_resolve members arguments scope held w wf trivial).1.disciplined reachable
  · exact (engine.isActivity_apply members function arguments receiver held w wf
      trivial).1.disciplined reachable
  · intro depth function parameters body closure receiver arguments frame opened result ended hbody
      hlength pushed ran
    rw [on_pushFunction] at pushed
    cases live : w.arena.scope? ((receiver <|> closure).getD global) with
    | none =>
      rw [live] at pushed
      cases pushed
    | some parent =>
      simp only [live, Prod.mk.injEq, Except.ok.injEq] at pushed
      have made : w.arena.allocate
          (blank .function (some ((receiver <|> closure).getD global))) = (frame, opened) :=
        Prod.ext pushed.1 pushed.2
      obtain ⟨popped, answered, _⟩ := engine.on_callFunction (engine.acting_run members depth) hbody
        hlength rfl held w wf ((isLive_iff _ _).2 ⟨parent, live⟩) made ran
      exact ⟨popped, answered⟩

/-- A function whose body fails fails, and its scope is released. -/
theorem failing_call_disciplined :
    let engine : Engine Unit :=
      { registry := .withCollections .reject, native := fun _ _ => throw (.unknownIdentifier "")
        activations := 1 }
    let f : Function := ⟨0, "f", .expression [] (.name "missing") none⟩
    let w : World Unit :=
      { arena := ofGlobals .strict [("f", .function f)], random := .linear 0, host := ⟨(), 1⟩ }
    let after := (engine.evaluate (.call (.name "f") []) global).on [] w
    after.1 = .error (.failed (.unknownIdentifier "missing")) ∧ after.2.arena.clock = 1 ∧
      Disciplined w.arena after.2.arena := by
  intro engine f w after
  have members : engine.HasBuiltInMembers := hasBuiltInMembers_withCollections _ _ _
  have reachable : w.arena.Reachable := .ofGlobals _ _
  exact ⟨rfl, rfl, (engine.evaluations_disciplined members [] w reachable).1 _ _⟩

/-- Evaluations can only permute arrays. -/
theorem evaluations_rearrange (engine : Engine σ) (members : engine.HasBuiltInMembers)
    (held : List Value) (w : World σ) (reachable : w.arena.Reachable)
    (closed : w.arena.journal = []) :
    (∀ e scope, Rearranges w.arena ((engine.evaluate e scope).on held w).2.arena) ∧
    (∀ e scope, Rearranges w.arena ((engine.render e scope).on held w).2.arena) ∧
    ∀ arguments scope, Rearranges w.arena ((engine.resolve arguments scope).on held w).2.arena := by
  have wf := reachable.wellFormed
  refine ⟨fun e scope => ?_, fun e scope => ?_, fun arguments scope => ?_⟩
  · exact (engine.acting_evaluate members e scope held w wf trivial).1.rearranges wf closed
  · exact (engine.acting_render members e scope held w wf trivial).1.rearranges wf closed
  · exact (engine.acting_resolve members arguments scope held w wf trivial).1.rearranges wf closed

/-- A function that shuffles a global array leaves another order of its items behind. -/
theorem shuffling_call_rearranges :
    let engine : Engine Unit :=
      { registry := .withCollections .reject, native := fun _ _ => throw (.unknownIdentifier "")
        activations := 1 }
    let f : Function :=
      ⟨0, "f", .expression [] (.call (.member (.name "xs") "shuffle") []) none⟩
    let w : World Unit :=
      { arena := ofGlobals .strict
          [("f", .function f), ("xs", .array [.bool true, .bool false])]
        random := .linear 0
        host := ⟨(), 1⟩ }
    let after := (engine.evaluate (.call (.name "f") []) global).on [] w
    after.2.arena.stored? global "xs" = some (.array [.bool false, .bool true]) ∧
      Rearranges w.arena after.2.arena := by
  have members := hasBuiltInMembers_withCollections (σ := Unit) .reject
    (fun _ _ => throw (.unknownIdentifier "")) 1
  refine ⟨?_, (evaluations_rearrange _ members [] _ (.ofGlobals _ _) rfl).1 _ _⟩
  rfl

end Engine

end Fluent

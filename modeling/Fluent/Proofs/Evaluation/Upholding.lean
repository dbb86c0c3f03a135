import Fluent.Proofs.Arena.Tidy
import Fluent.Proofs.Evaluation.Acting
import Fluent.Proofs.Evaluation.Tending

/-!
# Evaluations uphold what they start from

The rules here follow the values that an evaluation has in hand, and say that the custody of those
who hold values stays tidy, seen from where the evaluation started: nothing that was there is lost,
and nothing that is new is put where it would stay.

Main statements: `Upholds.bind` and `Upholds.bind_acts`, the rules for evaluations made of others;
`upholds_newObject`, an object is made of values in hand; `upholds_writeBack`, a binding is given
what it reads as in another order.
-/
namespace Fluent

open Arena

/-- What an evaluation starts from: a world, and the values that are held around the evaluation. -/
structure Outset (σ : Type) where
  held : List Value
  world : World σ
  /-- When the object was made that a handle was given out for last. -/
  made : ScopeId → Nat

namespace Outset

variable {σ : Type}

/-- The custody of those who hold values when the evaluation starts. -/
def custody (o : Outset σ) : Custody (σ → σ) :=
  ⟨o.world.arena, o.held ++ o.world.kept, o.made⟩

/-- The evaluation, with these values in hand and others held around it, has kept things in order
since it started. -/
structure Orderly (o : Outset σ) (held hand : List Value) (w : World σ) : Prop where
  kept : w.kept = o.world.kept
  plain : ¬ SomeNative hand
  tidy : ∃ made, Custody.Tidy o.custody ⟨w.arena, hand ++ (held ++ w.kept), made⟩

variable {o : Outset σ} {held hand : List Value} {w : World σ}

theorem Orderly.wellFormed (h : o.Orderly held hand w) : w.arena.WellFormed := by
  obtain ⟨made, tidy⟩ := h.tidy
  exact tidy.sound.wellFormed

/-- What is in hand may be regrouped, together with what is held around and what bindings read as. -/
theorem Orderly.regroup (h : o.Orderly held hand w) {around taken : List Value}
    (covered : Covers held around) (plain : ¬ SomeNative around)
    (stems : Stems (hand ++ around ++ w.arena.heldValues) taken) : o.Orderly held taken w := by
  obtain ⟨made, tidy⟩ := h.tidy
  refine ⟨h.kept, fun native => ?_, made, tidy.keep ?_⟩
  · have gentle := tidy.gentle
    have own := h.plain
    have native := stems.2 native
    grind
  · have covers := stems.covers
    show Covers (hand ++ (held ++ w.kept) ++ w.arena.heldValues) (taken ++ (held ++ w.kept))
    grind

theorem Orderly.drop (h : o.Orderly held hand w) : o.Orderly held [] w :=
  h.regroup (covers_nil held) (by simp) (stems_nil _)

end Outset

namespace EvalM

variable {σ α β : Type}

/-- If the arena is as required, the evaluation keeps things in order, from values in hand to those
that it brings. Values of `around` are held around it, besides those that were held when it all
started. -/
def Upholds (o : Outset σ) (p : Arena (σ → σ) → Prop) (around pre : List Value)
    (action : EvalM σ α) (post : α → List Value) : Prop :=
  ∀ held w, Covers held (around ++ o.held) → ¬ SomeNative around → p w.arena →
    o.Orderly held pre w → o.Orderly held (brought post (action.on held w).1) (action.on held w).2

/-- The evaluation keeps things in order in any arena. -/
abbrev Steadies (o : Outset σ) (around pre : List Value) (action : EvalM σ α)
    (post : α → List Value) : Prop :=
  Upholds o (fun _ => True) around pre action post

variable {o : Outset σ} {p : Arena (σ → σ) → Prop} {around pre : List Value} {post : α → List Value}

theorem Upholds.weaken {p' : Arena (σ → σ) → Prop} {x : EvalM σ α}
    (hx : Upholds o p around pre x post) (h : ∀ a, p' a → p a) : Upholds o p' around pre x post :=
  fun held w covered plain required => hx held w covered plain (h _ required)

/-- What is not needed any more may be dropped, and what is held around may be taken in hand. -/
theorem Upholds.conseq {pre' : List Value} {post' : α → List Value} {x : EvalM σ α}
    (hx : Upholds o p around pre x post) (hpre : Stems (pre' ++ around) pre)
    (hpost : ∀ v, Stems (post v ++ around) (post' v)) : Upholds o p around pre' x post' := by
  intro held w covered plain required orderly
  have given : Covers held around := covered.trans (.left _ _)
  have before := orderly.regroup given plain ((Stems.left _ _).trans hpre)
  have after := hx held w covered plain required before
  generalize x.on held w = r at after ⊢
  obtain ⟨_ | v, w'⟩ := r
  · exact after
  · exact after.regroup given plain ((Stems.left _ _).trans (hpost v))

/-- More may be held around. -/
theorem Upholds.mono {more : List Value} {x : EvalM σ α} (hx : Upholds o p around pre x post)
    (h : Stems more around) : Upholds o p more pre x post := by
  intro held w covered plain required orderly
  have given : Covers held (around ++ o.held) := by
    have covers := h.covers
    grind
  exact hx held w given (fun native => plain (h.2 native)) required orderly

theorem Upholds.within {more : List Value} {x : EvalM σ α} (hx : Upholds o p around pre x post)
    (h : Stems more (pre ++ around)) : Upholds o p more [] x post :=
  (hx.mono (h.trans (.right _ _))).conseq (h.trans (.left _ _)) fun _ => .left _ _

theorem Upholds.bind {x : EvalM σ α} {f : α → EvalM σ β} {q : α → List Value}
    {post : β → List Value} (hx : Upholds o p around pre x q)
    (hf : ∀ v, Steadies o around (q v) (f v) post) : Upholds o p around pre (x >>= f) post := by
  intro held w covered plain required orderly
  have first := hx held w covered plain required orderly
  rw [on_bind]
  generalize x.on held w = r at first
  obtain ⟨_ | v, w'⟩ := r
  · exact first
  · exact hf v held w' covered plain trivial first

/-- The arena that is left behind may be known to be as the next evaluation requires. -/
theorem Upholds.bind_acts {x : EvalM σ α} {f : α → EvalM σ β} {q : α → List Value}
    {r : α → Arena (σ → σ) → Prop} {post : β → List Value} (hx : Upholds o p around pre x q)
    (acts : Acts false p x r) (hf : ∀ v, Upholds o (r v) around (q v) (f v) post) :
    Upholds o p around pre (x >>= f) post := by
  intro held w covered plain required orderly
  have first := hx held w covered plain required orderly
  have promised := (acts held w orderly.wellFormed required).2
  rw [on_bind]
  generalize x.on held w = r at first promised
  obtain ⟨_ | v, w'⟩ := r
  · exact first
  · exact hf v held w' covered plain (promised v rfl) first

/-- An evaluation that leaves the arena as it is, and answers nothing but what is in hand or read
from the arena. -/
theorem Upholds.idle {x : EvalM σ α}
    (unchanged : ∀ held w, (x.on held w).2.arena = w.arena ∧ (x.on held w).2.kept = w.kept)
    (hpost : ∀ held w v, (x.on held w).1 = .ok v →
      Stems (pre ++ around ++ w.arena.heldValues) (post v)) : Upholds o p around pre x post := by
  intro held w covered plain required orderly
  obtain ⟨arena, kept⟩ := unchanged held w
  have same : ∀ {hand}, o.Orderly held hand w → o.Orderly held hand (x.on held w).2 := by
    rintro hand ⟨before, own, made, tidy⟩
    refine ⟨kept.trans before, own, made, ?_⟩
    rw [arena, kept]
    exact tidy
  cases answered : (x.on held w).1 with
  | error stop => exact same orderly.drop
  | ok v => exact same (orderly.regroup (covered.trans (.left _ _)) plain (hpost held w v answered))

theorem Upholds.pure {v : α} (h : Stems (pre ++ around) (post v)) :
    Upholds o p around pre (Pure.pure v : EvalM σ α) post := by
  refine .idle (fun _ _ => ⟨rfl, rfl⟩) fun held w u answered => ?_
  cases answered
  exact (Stems.left _ _).trans h

theorem Upholds.throw (stop : Stop) :
    Upholds o p around pre (MonadExcept.throw stop : EvalM σ α) post :=
  .idle (fun _ _ => ⟨rfl, rfl⟩) fun _ _ _ answered => by cases answered

theorem Upholds.fail (e : EvalError) :
    Upholds o p around pre (EvalM.fail e : EvalM σ α) post :=
  .throw (.failed e)

theorem Upholds.ofExcept {result : Except EvalError α}
    (h : ∀ v, result = .ok v → Stems (pre ++ around) (post v)) :
    Upholds o p around pre (EvalM.ofExcept result : EvalM σ α) post := by
  cases result with
  | error e => exact .fail e
  | ok v => exact .pure (h v rfl)

theorem Upholds.bind_ofExcept {result : Except EvalError α} {f : α → EvalM σ β}
    {post : β → List Value} (h : ∀ v, result = .ok v → Upholds o p around pre (f v) post) :
    Upholds o p around pre (EvalM.ofExcept result >>= f) post := by
  cases result with
  | error e => exact .fail e
  | ok v => exact h v rfl

/-- Code of the host works with what is in hand. -/
theorem Upholds.onHost {action : HostM σ α}
    (h : ∀ host v, (action.run.run host).1 = .ok v → Stems (pre ++ around) (post v)) :
    Upholds o p around pre (EvalM.onHost action) post := by
  refine .idle (fun held w => ?_) fun held w v answered => ?_
  · rw [on_onHost]
    exact ⟨rfl, rfl⟩
  · rw [on_onHost] at answered
    dsimp only at answered
    cases ended : (action.run.run w.host).1 with
    | error e =>
      rw [ended] at answered
      cases answered
    | ok u =>
      rw [ended] at answered
      cases answered
      exact (Stems.left _ _).trans (h w.host _ ended)

theorem upholds_resolve? (scope : ScopeId) (name : String) :
    Upholds o p around pre (EvalM.resolve? scope name : EvalM σ (Option ScopeId)) fun _ => pre :=
  .idle (fun _ _ => ⟨rfl, rfl⟩) fun _ _ _ _ => by grind

/-- What is read is in hand. -/
theorem upholds_findLocal? (scope : ScopeId) (name : String) :
    Upholds o p around pre (EvalM.findLocal? scope name : EvalM σ (Option Value)) fun found =>
      found.toList ++ pre := by
  refine .idle (fun _ _ => ⟨rfl, rfl⟩) fun held w found answered => ?_
  rw [on_findLocal?] at answered
  cases answered
  cases read : w.arena.findLocal? scope name with
  | none =>
    simp only [Option.toList]
    grind
  | some v =>
    have stored := stems_findLocal? read
    simp only [Option.toList]
    grind

/-- Values are held around an evaluation, and in hand before and after it. -/
theorem Upholds.holding {values : List Value} {x : EvalM σ α}
    (hx : Upholds o p (values ++ around) pre x post) :
    Upholds o p around (values ++ pre) (EvalM.holding values x) fun v => values ++ post v := by
  intro held w covered plain required orderly
  have own := orderly.plain
  have inner : Covers (values ++ held) (values ++ around ++ o.held) := by grind
  have before : o.Orderly (values ++ held) pre w := by
    obtain ⟨made, tidy⟩ := orderly.tidy
    refine ⟨orderly.kept, by grind, made, tidy.keep ?_⟩
    show Covers (values ++ pre ++ (held ++ w.kept) ++ w.arena.heldValues)
      (pre ++ (values ++ held ++ w.kept))
    grind
  have after := hx (values ++ held) w inner (by grind) required before
  rw [on_holding]
  generalize x.on (values ++ held) w = r at after ⊢
  obtain ⟨result, w'⟩ := r
  obtain ⟨made, tidy⟩ := after.tidy
  have brings := after.plain
  dsimp only at after tidy brings ⊢
  cases result with
  | error stop =>
    refine ⟨after.kept, by grind, made, tidy.keep ?_⟩
    show Covers ([] ++ (values ++ held ++ w'.kept) ++ w'.arena.heldValues) ([] ++ (held ++ w'.kept))
    grind
  | ok v =>
    refine ⟨after.kept, by grind, made, tidy.keep ?_⟩
    show Covers (post v ++ (values ++ held ++ w'.kept) ++ w'.arena.heldValues)
      (values ++ post v ++ (held ++ w'.kept))
    grind

/-- What is done in the end takes nothing out of anybody's hands. -/
theorem Upholds.ensuring {x : EvalM σ α} {cleanup : EvalM σ Unit}
    (hx : Upholds o p around pre x post)
    (hc : ∀ hand, Steadies o around hand cleanup fun _ => hand) :
    Upholds o p around pre (EvalM.ensuring x cleanup) post := by
  intro held w covered plain required orderly
  have first := hx held w covered plain required orderly
  rw [on_ensuring]
  generalize x.on held w = r at first ⊢
  obtain ⟨result, w₁⟩ := r
  dsimp only at first ⊢
  have second := hc (brought post result) held w₁ covered plain trivial first
  generalize cleanup.on held w₁ = r at second ⊢
  obtain ⟨_ | _, w₂⟩ := r
  · exact second
  · exact second

theorem Upholds.gently {x : EvalM σ α}
    (h : ¬ SomeNative pre → Upholds o p around pre x post) : Upholds o p around pre x post :=
  fun held w covered plain required orderly => h orderly.plain held w covered plain required orderly

/-- Lists may be opened and closed, and arguments may begin. -/
theorem Upholds.handleLists {x : EvalM σ PUnit} (op : Operation (σ → σ))
    (lists : op.handlesLists = true)
    (same : ∀ held w, x.on held w = (.ok ⟨⟩, { w with arena := op.after w.arena })) :
    Upholds o p around pre x fun _ => pre := by
  intro held w covered plain required orderly
  rw [same]
  obtain ⟨made, tidy⟩ := orderly.tidy
  exact ⟨orderly.kept, orderly.plain, made, tidy.handleLists op lists⟩

/-- The members of a new object are held until it holds them itself, and then it is in hand. Nothing
that was there when it all started is reclaimed before. -/
theorem upholds_newObject (members : List (String × Value)) :
    Upholds o p around (members.map Prod.snd) (EvalM.newObject members : EvalM σ ScopeId)
      fun object => [.object object] := by
  intro held w covered _ _ orderly
  obtain ⟨id, a, w', made, filled, kept, answered⟩ :=
    on_newObject members held w orderly.wellFormed
  obtain ⟨times, tidy⟩ := orderly.tidy
  rw [answered]
  rw [List.append_assoc] at made
  have keeps : Covers (members.map Prod.snd ++ (held ++ w.kept)) (o.held ++ o.world.kept) := by
    rw [orderly.kept]
    grind
  obtain ⟨times', created⟩ := (tidy.reclaim keeps).create made filled (.left _ _) orderly.plain
  refine ⟨kept.trans orderly.kept, ?_, times', created.keep ?_⟩
  · simp [brought, Value.hasNative]
  · show Covers (.object id :: (members.map Prod.snd ++ (held ++ w.kept)) ++ w'.arena.heldValues)
      ([.object id] ++ (held ++ w'.kept))
    rw [kept]
    grind

/-- What a member call's receiver was read from may be given what it reads as, in another order. -/
theorem upholds_writeBack (call : MemberCall) (value : Value) :
    Upholds o (fun a => Value.Rearranged (some call.receiver) (some value) ∧
        Engine.Located (call.receiver, call.place) a) around [value] (call.writeBack value)
      fun _ => [value] := by
  unfold MemberCall.writeBack
  split
  · rename_i place hplace
    intro held w covered _ required orderly
    obtain ⟨same, located⟩ := required
    have reads : w.arena.findLocal? place.scope place.name = some call.receiver :=
      located place hplace
    have landed := w.arena.on_assign_of_isSome place.scope place.name value (by rw [reads]; rfl)
    obtain ⟨s, live, landed⟩ | ⟨e, failed⟩ := landed
    · simp only [on_notifying, landed]
      obtain ⟨made, tidy⟩ := orderly.tidy
      have plain : value.hasNative = false := by
        have own := orderly.plain
        simpa using own
      exact ⟨orderly.kept, orderly.plain, made,
        tidy.shuffle live (reads ▸ same) (.left [value] _) plain⟩
    · simp only [on_notifying, failed]
      exact orderly.drop
  · exact .fail _

end EvalM

end Fluent

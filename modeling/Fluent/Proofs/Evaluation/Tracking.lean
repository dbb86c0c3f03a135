import Fluent.Proofs.Arena.Twins
import Fluent.Proofs.Evaluation.Acting

/-!
# Evaluations in two worlds

The same argument is resolved in two worlds whose arenas it cannot tell apart. One evaluation tracks
another if, whenever the other ends with a value and has made no object, it ends with the same value,
and the worlds stay alike. The rules here say so of the actions of which evaluations are made.
-/
namespace Fluent

open Arena

namespace HostM

variable {σ α : Type}

/-- How the code ends and which identities it takes depends on the supply of identities alone. -/
def IsPure (action : HostM σ α) : Prop :=
  ∀ h h' : Host σ, h.identity = h'.identity →
    (action.run.run h).1 = (action.run.run h').1 ∧
      (action.run.run h).2.identity = (action.run.run h').2.identity

/-- Every result of the code has the property. -/
def Yields (action : HostM σ α) (P : α → Prop) : Prop :=
  ∀ h v, (action.run.run h).1 = .ok v → P v

end HostM

namespace EvalM

variable {σ α β : Type}

/-- The worlds differ in nothing that an argument can find out. -/
structure Parallel (a₀ : Arena (σ → σ)) (more offset : Nat) (frames : List (ScopeId × ScopeId))
    (n : Nat) (w w' : World σ) : Prop where
  arenas : Twins a₀ more offset frames n w.arena w'.arena
  random : w.random = w'.random
  identity : w.host.identity = w'.host.identity

/-- In parallel worlds the second evaluation ends as the first one does, if that ends with a value
and has made no object, and the worlds are parallel again. What is required matters only here. -/
structure Tracks (a₀ : Arena (σ → σ)) (more offset : Nat) (pre : Prop)
    (frames : List (ScopeId × ScopeId)) (n : Nat) (R : α → α → Prop) (x y : EvalM σ α) : Prop where
  onward : ∀ held w, w.arena.WellFormed → Onward w.arena (x.on held w).2.arena
  follows : pre → ∀ held held' w w', Parallel a₀ more offset frames n w w' →
    ∀ v w₁, x.on held w = (.ok v, w₁) → a₀.Calm more w₁.arena →
      ∃ v' w₁', y.on held' w' = (.ok v', w₁') ∧ R v v' ∧ Parallel a₀ more offset frames n w₁ w₁'

/-- The results are one, and it has the property. -/
def Alike (P : α → Prop) (v v' : α) : Prop :=
  v = v' ∧ P v

section

variable {a₀ : Arena (σ → σ)} {more offset n : Nat} {pre : Prop}
  {frames : List (ScopeId × ScopeId)} {R : α → α → Prop} {Q : β → β → Prop} {P : α → Prop}

theorem Tracks.bind {x y : EvalM σ α} {f g : α → EvalM σ β}
    (hx : Tracks a₀ more offset pre frames n R x y)
    (hf : ∀ v v', Tracks a₀ more offset (pre ∧ R v v') frames n Q (f v) (g v')) :
    Tracks a₀ more offset pre frames n Q (x >>= f) (y >>= g) where
  onward held w wf := by
    have first := hx.onward held w wf
    rw [on_bind]
    generalize x.on held w = r at first
    obtain ⟨_ | v, w₁⟩ := r
    · exact first
    · exact first.trans ((hf v v).onward held w₁ first.wellFormed)
  follows hpre held held' w w' parallel u w₂ ended calm := by
    have wf := parallel.arenas.left.grown.wellFormed
    have past := parallel.arenas.left.grown.changes.clock_le
    obtain ⟨v, w₁, ran, ended⟩ := exists_of_on_bind ended
    have first := hx.onward held w wf
    rw [ran] at first
    have second := (hf v v).onward held w₁ first.wellFormed
    rw [ended] at second
    have before := calm.of_onward second (Nat.le_trans past first.clock_le)
    obtain ⟨v', w₁', ran', same, parallel'⟩ :=
      hx.follows hpre held held' w w' parallel v w₁ ran before
    obtain ⟨u', w₂', ended', same', parallel''⟩ :=
      (hf v v').follows ⟨hpre, same⟩ held held' w₁ w₁' parallel' u w₂ ended calm
    refine ⟨u', w₂', ?_, same', parallel''⟩
    rw [on_bind, ran']
    exact ended'

theorem Tracks.weaken {pre' : Prop} {R' : α → α → Prop} {x y : EvalM σ α}
    (h : Tracks a₀ more offset pre frames n R x y) (hpre : pre' → pre)
    (hpost : ∀ v v', pre' → R v v' → R' v v') : Tracks a₀ more offset pre' frames n R' x y where
  onward := h.onward
  follows hp held held' w w' parallel v w₁ ended calm := by
    obtain ⟨v', w₁', ended', same, parallel'⟩ :=
      h.follows (hpre hp) held held' w w' parallel v w₁ ended calm
    exact ⟨v', w₁', ended', hpost v v' hp same, parallel'⟩

theorem Tracks.require {pre' : Prop} {x y : EvalM σ α}
    (h : Tracks a₀ more offset pre frames n R x y) (hpre : pre' → pre) :
    Tracks a₀ more offset pre' frames n R x y :=
  h.weaken hpre fun _ _ _ same => same

/-- Where the first step ends with one result, the second goes on from one. -/
theorem Tracks.bindAlike {x y : EvalM σ α} {f g : α → EvalM σ β}
    (hx : Tracks a₀ more offset pre frames n (Alike P) x y)
    (hf : ∀ v, Tracks a₀ more offset (pre ∧ P v) frames n Q (f v) (g v)) :
    Tracks a₀ more offset pre frames n Q (x >>= f) (y >>= g) := by
  refine hx.bind fun v v' => ⟨(hf v).onward, ?_⟩
  rintro ⟨hpre, rfl, property⟩
  exact (hf v).follows ⟨hpre, property⟩

theorem Tracks.holding {values values' : List Value} {x y : EvalM σ α}
    (h : Tracks a₀ more offset pre frames n R x y) :
    Tracks a₀ more offset pre frames n R (EvalM.holding values x) (EvalM.holding values' y) where
  onward held w wf := h.onward (values ++ held) w wf
  follows hpre held held' := h.follows hpre (values ++ held) (values' ++ held')

/-- An action that changes neither the arena, nor the random source, nor the identities' supply. -/
theorem Tracks.idle {x y : EvalM σ α}
    (unchanged : ∀ held w, (x.on held w).2.arena = w.arena)
    (h : pre → ∀ held held' w w', Parallel a₀ more offset frames n w w' →
      ∀ v w₁, x.on held w = (.ok v, w₁) →
        ∃ v' w₁', y.on held' w' = (.ok v', w₁') ∧ R v v' ∧ Parallel a₀ more offset frames n w₁ w₁') :
    Tracks a₀ more offset pre frames n R x y where
  onward held w wf := by
    rw [unchanged]
    exact .refl wf
  follows hpre held held' w w' parallel v w₁ ended _ := h hpre held held' w w' parallel v w₁ ended

theorem Tracks.pure {v v' : α} (h : pre → R v v') :
    Tracks a₀ more offset pre frames n R (Pure.pure v : EvalM σ α) (Pure.pure v') := by
  refine .idle (fun _ _ => rfl) fun hpre held held' w w' parallel u w₁ ended => ?_
  cases ended
  exact ⟨v', w', rfl, h hpre, parallel⟩

theorem Tracks.fail (e : EvalError) (y : EvalM σ α) :
    Tracks a₀ more offset pre frames n R (EvalM.fail e) y := by
  refine .idle (fun _ _ => rfl) fun hpre held held' w w' parallel u w₁ ended => ?_
  cases ended

theorem Tracks.ofExcept (result : Except EvalError α) (h : ∀ v, result = .ok v → pre → P v) :
    Tracks a₀ more offset pre frames n (Alike P) (EvalM.ofExcept result : EvalM σ α)
      (EvalM.ofExcept result) := by
  refine .idle (fun _ _ => by rw [on_ofExcept]) fun hpre held held' w w' parallel u w₁ ended => ?_
  cases result with
  | error e => cases ended
  | ok v =>
    cases ended
    exact ⟨u, w', rfl, ⟨rfl, h u rfl hpre⟩, parallel⟩

/-- Pure code of the host ends alike, since it is given the same supply of identities. -/
theorem Tracks.onHost {action : HostM σ α} (isPure : pre → action.IsPure)
    (yields : pre → action.Yields P) :
    Tracks a₀ more offset pre frames n (Alike P) (EvalM.onHost action) (EvalM.onHost action) := by
  refine .idle (fun _ _ => by rw [on_onHost]) fun hpre held held' w w' parallel u w₁ ended => ?_
  obtain ⟨same, identity⟩ := isPure hpre w.host w'.host parallel.identity
  rw [on_onHost] at ended ⊢
  cases result : (action.run.run w.host).1 with
  | error e =>
    rw [result] at ended
    cases ended
  | ok v =>
    rw [result] at ended same
    cases ended
    rw [← same]
    refine ⟨u, _, rfl, ⟨rfl, yields hpre w.host u result⟩, parallel.arenas, parallel.random, ?_⟩
    exact identity

theorem Tracks.resolve? {id id' : ScopeId} (name : String)
    (h : pre → a₀.Matches more frames id id') :
    Tracks a₀ more offset pre frames n (Option.Rel (a₀.Matches more frames))
      (EvalM.resolve? id name : EvalM σ (Option ScopeId)) (EvalM.resolve? id' name) := by
  refine .idle (fun _ _ => rfl) fun hpre held held' w w' parallel u w₁ ended => ?_
  rw [on_resolve?] at ended
  cases ended
  exact ⟨_, w', rfl, parallel.arenas.resolve? name (h hpre), parallel⟩

theorem Tracks.findLocal? {id id' : ScopeId} (name : String)
    (h : pre → a₀.Matches more frames id id') :
    Tracks a₀ more offset pre frames n (Alike (a₀.Clean more))
      (EvalM.findLocal? id name : EvalM σ (Option Value)) (EvalM.findLocal? id' name) := by
  refine .idle (fun _ _ => rfl) fun hpre held held' w w' parallel u w₁ ended => ?_
  rw [on_findLocal?] at ended
  cases ended
  refine ⟨_, w', rfl, ⟨parallel.arenas.findLocal?_eq (h hpre) name, ?_⟩, parallel⟩
  exact parallel.arenas.clean_findLocal? (h hpre) name

/-- A shuffle draws from the same source. -/
theorem Tracks.shuffled (items : List α) :
    Tracks a₀ more offset pre frames n (Alike fun drawn => drawn.Perm items)
      (EvalM.shuffled items : EvalM σ (List α)) (EvalM.shuffled items) := by
  refine .idle (fun _ _ => rfl) fun hpre held held' w w' parallel u w₁ ended => ?_
  rw [on_shuffled] at ended ⊢
  cases ended
  rw [← parallel.random]
  exact ⟨_, _, rfl, ⟨rfl, w.random.shuffle_perm items⟩, parallel.arenas, rfl, parallel.identity⟩

/-- A write that lands in the first world lands in the second. Observers change the host's state,
which nothing that is pure depends on. -/
theorem Tracks.notifying {action action' : ArenaM (σ → σ) (List (σ → σ))}
    (onward : ∀ a : Arena (σ → σ), a.WellFormed → Onward a (action.on a).2)
    (h : pre → ∀ (x y x' : Arena (σ → σ)) observers, Twins a₀ more offset frames n x y →
      action.on x = (.ok observers, x') → ∃ observers' y', action'.on y = (.ok observers', y') ∧
        Twins a₀ more offset frames n x' y') :
    Tracks a₀ more offset pre frames n (Alike fun _ => True) (EvalM.notifying action)
      (EvalM.notifying action') where
  onward held w wf := by
    have same := onward w.arena wf
    rw [on_notifying]
    generalize action.on w.arena = r at same
    obtain ⟨_ | observers, a⟩ := r
    · exact same
    · exact same
  follows hpre held held' w w' parallel v w₁ ended _ := by
    rw [on_notifying] at ended ⊢
    cases ran : action.on w.arena with
    | mk result a =>
      rw [ran] at ended
      cases result with
      | error e => cases ended
      | ok observers =>
        cases ended
        obtain ⟨observers', b, ran', twins⟩ := h hpre _ _ _ observers parallel.arenas ran
        rw [ran']
        exact ⟨(), _, rfl, ⟨rfl, trivial⟩, twins, parallel.random, parallel.identity⟩

/-- An evaluation that has made no object has made none. -/
theorem Tracks.newObject {R : ScopeId → ScopeId → Prop} (members : List (String × Value))
    (y : EvalM σ ScopeId) :
    Tracks a₀ more offset pre frames n R (EvalM.newObject members) y where
  onward held w wf := (isActivity_newObject members held w wf trivial).1.onward wf
  follows _ held held' w w' parallel v w₁ ended calm := by
    have wf := parallel.arenas.left.grown.wellFormed
    have past := parallel.arenas.left.grown.changes.clock_le
    obtain ⟨id, a, w₂, made, filled, -, answered⟩ := on_newObject members held w wf
    rw [answered] at ended
    cases ended
    exact absurd (wf.hasObjectSince_of_made made filled.fills past) calm.objects

end

end EvalM

namespace Engine

open EvalM

variable {σ α : Type}

/-- In scopes that stand for the same, the evaluation tracks itself, with results that have the
property. -/
def Tracking (a₀ : Arena (σ → σ)) (more offset : Nat) (P : α → Prop) (evaluation : Deferred σ α) :
    Prop :=
  ∀ frames n scope scope', Tracks a₀ more offset (a₀.Matches more frames scope scope') frames n
    (Alike P) (evaluation scope) (evaluation scope')

/-- The value mentions only what lasts. -/
abbrev CleanValue (a₀ : Arena (σ → σ)) (more : Nat) (v : Value) : Prop :=
  a₀.Clean more (some v)

/-- The arguments mention only what lasts. -/
def CleanArguments (a₀ : Arena (σ → σ)) (more : Nat) (arguments : List (Argument Value)) : Prop :=
  ∀ argument ∈ arguments, CleanValue a₀ more argument.value

section

variable {a₀ : Arena (σ → σ)} {more offset n : Nat} {pre : Prop}
  {frames : List (ScopeId × ScopeId)} {scope scope' : ScopeId}

theorem tracks_resolveFrom (m : pre → a₀.Matches more frames scope scope')
    (arguments : List (Argument (Deferred σ Value)))
    (h : ∀ argument ∈ arguments, Tracking a₀ more offset (CleanValue a₀ more) argument.value)
    (index : Nat) :
    Tracks a₀ more offset pre frames (n + 1) (Alike (CleanArguments a₀ more))
      (resolveFrom scope index arguments) (resolveFrom scope' index arguments) := by
  induction arguments generalizing index pre with
  | nil =>
    refine .pure fun _ => ⟨rfl, fun argument ha => ?_⟩
    cases ha
  | cons argument rest ih =>
    refine .bindAlike (P := fun _ => True) ?_ fun _ => ?_
    · constructor
      · exact fun held w wf => onward_beginArgument wf index
      · intro _ held held' w w' parallel v w₁ ended _
        rw [on_modify] at ended
        cases ended
        exact ⟨_, _, on_modify _ held' w', ⟨rfl, trivial⟩, parallel.arenas.beginArgument index,
          parallel.random, parallel.identity⟩
    refine .bindAlike ((h argument (by simp) frames (n + 1) scope scope').require fun hp => m hp.1) ?_
    intro value
    refine .bindAlike (.holding (ih (fun hp => m hp.1.1) (fun a ha => h a (by simp [ha])) _)) ?_
    intro values
    refine .pure fun hp => ⟨rfl, fun a ha => ?_⟩
    obtain ⟨⟨_, cleanValue⟩, cleanValues⟩ := hp
    obtain rfl | ha := List.mem_cons.1 ha
    · exact cleanValue
    · exact cleanValues a ha

/-- An argument list of the argument's own is opened and closed in both worlds. -/
theorem tracks_resolveArguments (m : pre → a₀.Matches more frames scope scope')
    (arguments : List (Argument (Deferred σ Value)))
    (h : ∀ argument ∈ arguments, Tracking a₀ more offset (CleanValue a₀ more) argument.value) :
    Tracks a₀ more offset pre frames n (Alike (CleanArguments a₀ more))
      (resolveArguments arguments scope) (resolveArguments arguments scope') := by
  have tracks := tracks_resolveFrom (n := n) m arguments h 0
  constructor
  · intro held w wf
    have opened : Onward w.arena w.arena.openArguments :=
      .of_scope?_eq wf.openArguments rfl fun _ => rfl
    have during := tracks.onward held { w with arena := w.arena.openArguments } wf.openArguments
    rw [on_resolveArguments]
    generalize (resolveFrom scope 0 arguments).on held { w with arena := w.arena.openArguments } = r
      at during
    have closed : Onward r.2.arena r.2.arena.closeArguments :=
      .of_scope?_eq during.wellFormed.closeArguments rfl fun _ => rfl
    exact (opened.trans during).trans closed
  · intro hpre held held' w w' parallel values w₁ ended calm
    rw [on_resolveArguments] at ended ⊢
    cases ran : (resolveFrom scope 0 arguments).on held
        { w with arena := w.arena.openArguments } with
    | mk result w₂ =>
      rw [ran] at ended
      cases ended
      have before : a₀.Calm more w₂.arena := ⟨calm.objects, calm.clock_le⟩
      obtain ⟨values', w₂', ran', same, parallel'⟩ := tracks.follows hpre held held'
        { w with arena := w.arena.openArguments } { w' with arena := w'.arena.openArguments }
        ⟨parallel.arenas.openArguments, parallel.random, parallel.identity⟩ values w₂ ran before
      rw [ran']
      exact ⟨values', _, rfl, same, parallel'.arenas.closeArguments, parallel'.random,
        parallel'.identity⟩

end

end Engine

end Fluent

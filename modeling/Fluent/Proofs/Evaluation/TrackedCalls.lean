import Fluent.Proofs.Evaluation.Tracking

/-!
# Calls in two worlds

Calls of functions and initializers and the building of views track themselves in parallel worlds, if
what they are given does.

Main statement: `tracks_callFunction`, the scope of a call is made and released in either world.
-/
namespace Fluent.Engine

open Arena EvalM

variable {σ : Type}

/-- Code of the host is a pure function of what it is given, up to the identities of what it makes,
and what it answers with has the property if what it is given has. -/
structure HostIsPure (engine : Engine σ) (P : Value → Prop) : Prop where
  native : ∀ function arguments, (engine.native function arguments).IsPure
  native_yields : ∀ function arguments, P (.function function) → (∀ a ∈ arguments, P a.value) →
    (engine.native function arguments).Yields P
  construct : ∀ name build, engine.registry.constructors.find? name = some build →
    ∀ arguments, (build arguments).IsPure
  construct_yields : ∀ name build, engine.registry.constructors.find? name = some build →
    ∀ arguments, (∀ a ∈ arguments, P a.value) →
      (build arguments).Yields fun artifact => P (.artifact artifact)
  decorate : ∀ name modify, engine.registry.decorators.find? name = some modify →
    ∀ arguments artifact, (modify arguments artifact).IsPure
  decorate_yields : ∀ name modify, engine.registry.decorators.find? name = some modify →
    ∀ arguments artifact, (∀ a ∈ arguments, P a.value) → P (.artifact artifact) →
      (modify arguments artifact).Yields fun artifact => P (.artifact artifact)

section

variable {a₀ : Arena (σ → σ)} {more offset n : Nat} {pre : Prop}
  {frames : List (ScopeId × ScopeId)} {scope scope' : ScopeId}

theorem clean_of_not_refers {v : Value} (h : ∀ id, ¬ v.Refers id) : CleanValue a₀ more v := by
  intro u hu id refers
  cases hu
  exact absurd refers (h id)

theorem tracks_forM_define {id id' : ScopeId} (m : pre → a₀.Matches more frames id id')
    (items : List (String × Argument Value))
    (clean : pre → ∀ item ∈ items, CleanValue a₀ more item.2.value) :
    Tracks a₀ more offset pre frames n (Alike fun _ => True)
      (items.forM fun item => notifying (define id item.1 item.2.value) : EvalM σ Unit)
      (items.forM fun item => notifying (define id' item.1 item.2.value)) := by
  induction items with
  | nil => exact .pure fun _ => ⟨rfl, trivial⟩
  | cons item rest ih =>
    show Tracks a₀ more offset pre frames n (Alike fun _ => True)
      (notifying (define id item.1 item.2.value) >>= fun _ => rest.forM _)
      (notifying (define id' item.1 item.2.value) >>= fun _ => rest.forM _)
    refine .bindAlike (P := fun _ => True) (.notifying ?_ ?_) fun _ => ?_
    · exact fun a wf => onward_define wf id item.1 item.2.value
    · intro hpre x y x' observers twins ran
      exact twins.define (m hpre) item.1 (clean hpre item (by simp)) ran
    · exact (ih fun hpre i hi => clean hpre i (by simp [hi])).require And.left

theorem tracks_activate {run : Expr → Deferred σ Value}
    (tracking : ∀ body, Tracking a₀ more offset (CleanValue a₀ more) (run body))
    {frame frame' : ScopeId} (m : pre → a₀.Matches more frames frame frame')
    (parameters : List String) (body : Expr) (arguments : List (Argument Value))
    (clean : pre → CleanArguments a₀ more arguments) :
    Tracks a₀ more offset pre frames n (Alike (CleanValue a₀ more))
      (activate run frame parameters body arguments)
      (activate run frame' parameters body arguments) := by
  refine .bindAlike (tracks_forM_define m _ fun hpre item hi => ?_) fun _ => ?_
  · exact clean hpre item.2 (List.of_mem_zip hi).2
  · exact (tracking body frames n frame frame').require fun hpre => m hpre.1

/-- The scope around an activation lasts: the receiver, the scope that the function was made in, or
else the global one. -/
theorem lasting_parent (wf : a₀.WellFormed) {function : Function} {parameters : List String}
    {body : Expr} {closure receiver : Option ScopeId}
    (hbody : function.body = .expression parameters body closure)
    (clean : CleanValue a₀ more (.function function))
    (lasting : ∀ id, receiver = some id → a₀.Lasting more id) :
    a₀.Lasting more ((receiver <|> closure).getD global) := by
  cases receiver with
  | some id => exact lasting id rfl
  | none =>
    cases closure with
    | some id => exact clean _ rfl id (.closure hbody)
    | none =>
      obtain ⟨g, live, _⟩ := wf.global_live
      exact .inl ((a₀.isLive_iff global).2 ⟨g, live⟩)

/-- When a call's body ends, the call's scope is there to be released, and no list is open that is
newer than the scope. -/
theorem exists_frame_of_activate {run : Expr → Deferred σ Value} (acting : ∀ body, Acting (run body))
    {parent : Option ScopeId} {frame : ScopeId} {parameters : List String} {body : Expr}
    {arguments : List (Argument Value)} {held : List Value} {w w' : World σ} {a : Arena (σ → σ)}
    {result : Except Stop Value} (wf : w.arena.WellFormed)
    (made : w.arena.allocate (blank .function parent) = (frame, a))
    (ended : (activate run frame parameters body arguments).on held { w with arena := a } =
      (result, w')) :
    ∃ s, w'.arena.scope? frame = some s ∧ s.kind = .function ∧
      (∀ list ∈ w'.arena.journal, list.opened < s.created) ∧ w.arena.clock < w'.arena.clock := by
  have wfa : a.WellFormed := (Turnover.of_allocate_eq (by simp) made).wellFormed wf
  have own := wf.scope?_of_allocate_eq made frame
  rw [if_pos rfl] at own
  obtain ⟨c, bound, activity⟩ := activity_of_activate acting wfa ((isLive_iff _ _).2 ⟨_, own⟩) ended
  obtain ⟨s, here, function, _, newest⟩ := wf.exists_newest_frame made bound activity
  refine ⟨s, here, function, newest, ?_⟩
  have next : a.clock = w.arena.clock + 1 := by
    have next := w.arena.clock_allocate (blank .function parent)
    rwa [made] at next
  have filled := bound.onward wfa
  have later : a.clock ≤ w'.arena.clock := (filled.trans (activity.onward filled.wellFormed)).clock_le
  omega

/-- A call makes a scope in either world and releases it again. -/
theorem tracks_callFunction (engine : Engine σ) {run : Expr → Deferred σ Value}
    (acting : ∀ body, Acting (run body))
    (tracking : ∀ body, Tracking a₀ more offset (CleanValue a₀ more) (run body))
    (host : engine.HostIsPure (CleanValue a₀ more)) (function : Function)
    (arguments : List (Argument Value)) (receiver : Option ScopeId) :
    Tracks a₀ more offset (CleanValue a₀ more (.function function) ∧
        CleanArguments a₀ more arguments ∧ ∀ id, receiver = some id → a₀.Lasting more id)
      frames n (Alike (CleanValue a₀ more))
      (engine.callFunction run function arguments receiver)
      (engine.callFunction run function arguments receiver) := by
  constructor
  · intro held w wf
    have called := engine.isActivity_callFunction acting function arguments receiver
    exact (called held w wf trivial).1.onward wf
  rintro ⟨cleanFunction, cleanArguments, lastingReceiver⟩
  cases hbody : function.body with
  | native key =>
    have tracks : Tracks a₀ more offset True frames n (Alike (CleanValue a₀ more))
        (onHost (engine.native function arguments)) (onHost (engine.native function arguments)) :=
      .onHost (fun _ => host.native function arguments)
        fun _ => host.native_yields function arguments cleanFunction cleanArguments
    simpa only [callFunction, hbody] using tracks.follows trivial
  | expression parameters body closure =>
    intro held held' w w' parallel v w₁ ended calm
    by_cases hlength : parameters.length = arguments.length
    · have wf := parallel.arenas.left.grown.wellFormed
      have wf' := parallel.arenas.right.grown.wellFormed
      have lasting := lasting_parent parallel.arenas.left.grown.start hbody cleanFunction
        lastingReceiver
      generalize hparent : (receiver <|> closure).getD global = parent at lasting
      obtain ⟨stale, _⟩ | ⟨p, p', here, there, _⟩ :=
        parallel.arenas.scopes (.inr ⟨rfl, lasting⟩ : a₀.Matches more frames parent parent)
      · rw [engine.on_callFunction_of_stale run hbody hlength hparent held stale] at ended
        cases ended
      · have live := (isLive_iff _ _).2 ⟨p, here⟩
        have live' := (isLive_iff _ _).2 ⟨p', there⟩
        cases made : w.arena.allocate (blank .function (some parent)) with
        | mk frame x =>
        cases made' : w'.arena.allocate (blank .function (some parent)) with
        | mk frame' y =>
        cases ran : (activate run frame parameters body arguments).on held { w with arena := x } with
        | mk result w₂ =>
        obtain ⟨_, answered, _⟩ :=
          engine.on_callFunction acting hbody hlength hparent held w wf live made ran
        rw [answered] at ended
        cases ended
        obtain ⟨s, ownLive, isFunction, newest, later⟩ := exists_frame_of_activate acting wf made ran
        have before : a₀.Calm more w₂.arena :=
          ⟨fun has => calm.objects (has.release ownLive isFunction), calm.clock_le⟩
        have bounded := before.clock_le
        have offset_eq := parallel.arenas.clock
        have entered := parallel.arenas.left.entered made (by omega)
        have entered' := parallel.arenas.right.entered made' (by omega)
        have tracks : Tracks a₀ more offset True ((frame, frame') :: frames) n
            (Alike (CleanValue a₀ more)) (activate run frame parameters body arguments)
            (activate run frame' parameters body arguments) :=
          tracks_activate tracking (fun _ => .inl List.mem_cons_self) parameters body arguments
            fun _ => cleanArguments
        obtain ⟨v', w₂', ran', same, parallel'⟩ := tracks.follows trivial held held'
          { w with arena := x } { w' with arena := y }
          ⟨parallel.arenas.pushed lasting entered entered', parallel.random, parallel.identity⟩
          v w₂ ran before
        obtain ⟨_, answered', _⟩ :=
          engine.on_callFunction acting hbody hlength hparent held' w' wf' live' made' ran'
        obtain ⟨t, ownLive', _, newest', _⟩ := exists_frame_of_activate acting wf' made' ran'
        have apart := parallel.arenas.apart entered entered'
        refine ⟨v', _, answered', same, parallel'.arenas.popped apart ?_ ?_, parallel'.random,
          parallel'.identity⟩
        · intro u hu
          rw [ownLive] at hu
          cases hu
          exact newest
        · intro u hu
          rw [ownLive'] at hu
          cases hu
          exact newest'
    · simp only [callFunction, hbody, ne_eq, hlength, not_false_eq_true, if_true] at ended
      cases ended

/-- Numbers mention nothing. -/
theorem clean_integerOf {value v : Value} (h : integerOf value = .ok v) : CleanValue a₀ more v := by
  refine clean_of_not_refers fun id refers => ?_
  unfold integerOf at h
  split at h
  · cases h
    cases refers
  · split at h
    · cases h
      cases refers
    · cases h
  · cases h

theorem clean_doubleOf {type : String} {value v : Value} (h : doubleOf type value = .ok v) :
    CleanValue a₀ more v := by
  refine clean_of_not_refers fun id refers => ?_
  unfold doubleOf at h
  split at h
  · cases h
    cases refers
  · cases h

theorem tracks_constructorOf (engine : Engine σ) (name : String) :
    Tracks a₀ more offset pre frames n
      (Alike fun build => engine.registry.constructors.find? name = some build)
      (EvalM.ofExcept (engine.registry.constructorOf name) : EvalM σ (Constructor σ))
      (EvalM.ofExcept (engine.registry.constructorOf name)) := by
  refine .ofExcept _ fun build found _ => ?_
  unfold Registry.constructorOf at found
  split at found
  · rename_i known
    cases found
    exact known
  · cases found

theorem tracks_decoratorOf (engine : Engine σ) (name : String) :
    Tracks a₀ more offset pre frames n
      (Alike fun decorate => engine.registry.decorators.find? name = some decorate)
      (EvalM.ofExcept (engine.registry.decoratorOf name) : EvalM σ (Decorator σ))
      (EvalM.ofExcept (engine.registry.decoratorOf name)) := by
  refine .ofExcept _ fun decorate found _ => ?_
  unfold Registry.decoratorOf at found
  split at found
  · rename_i known
    cases found
    exact known
  · cases found

theorem tracks_makeValue (engine : Engine σ) (host : engine.HostIsPure (CleanValue a₀ more))
    (type : RuntimeType Value) (arguments : List (Argument Value)) :
    Tracks a₀ more offset (CleanArguments a₀ more arguments) frames n (Alike (CleanValue a₀ more))
      (engine.makeValue type arguments) (engine.makeValue type arguments) := by
  unfold makeValue
  split
  · exact .fail _ _
  · refine .ofExcept _ fun v hv _ => ?_
    cases single : singleArgument BuiltIn.int.name arguments with
    | error e =>
      rw [single] at hv
      cases hv
    | ok value =>
      rw [single] at hv
      exact clean_integerOf hv
  · rename_i name _
    refine .ofExcept _ fun v hv _ => ?_
    cases single : singleArgument name arguments with
    | error e =>
      rw [single] at hv
      cases hv
    | ok value =>
      rw [single] at hv
      exact clean_doubleOf hv
  · refine .bindAlike (tracks_constructorOf engine _) fun build => ?_
    refine .bindAlike (P := fun artifact => CleanValue a₀ more (.artifact artifact)) (.onHost
      (fun hp => host.construct _ build hp.2 arguments)
      fun hp => host.construct_yields _ build hp.2 arguments hp.1) fun artifact => ?_
    refine .bind (R := fun _ _ => False) (.newObject _ _) fun object object' => ?_
    exact .pure fun hp => hp.2.elim
  · exact .fail _ _

theorem tracks_callType (engine : Engine σ) (host : engine.HostIsPure (CleanValue a₀ more))
    (type : RuntimeType Value) {arguments : List (Argument (Deferred σ Value))}
    (h : ∀ argument ∈ arguments, Tracking a₀ more offset (CleanValue a₀ more) argument.value) :
    Tracking a₀ more offset (CleanValue a₀ more) (engine.callType type arguments) := by
  intro frames n scope scope'
  refine .holding (.bindAlike (tracks_resolveArguments id arguments h) fun values => ?_)
  exact .holding ((tracks_makeValue engine host type values).require And.right)

theorem tracks_applyModifiers (engine : Engine σ) (host : engine.HostIsPure (CleanValue a₀ more))
    (m : pre → a₀.Matches more frames scope scope') (modifiers : List (Call (Deferred σ Value)))
    (h : ∀ call ∈ modifiers, ∀ argument ∈ call.arguments,
      Tracking a₀ more offset (CleanValue a₀ more) argument.value) (artifact : Artifact Value)
    (clean : pre → CleanValue a₀ more (.artifact artifact)) :
    Tracks a₀ more offset pre frames n (Alike fun artifact => CleanValue a₀ more (.artifact artifact))
      (engine.applyModifiers scope artifact modifiers)
      (engine.applyModifiers scope' artifact modifiers) := by
  induction modifiers generalizing artifact pre with
  | nil => exact .pure fun hpre => ⟨rfl, clean hpre⟩
  | cons modifier rest ih =>
    refine .bindAlike (tracks_decoratorOf engine _) fun decorate => ?_
    refine .bindAlike (.holding (tracks_resolveArguments (fun hp => m hp.1) modifier.arguments
      (h modifier (by simp)))) fun arguments => ?_
    refine .bindAlike (P := fun artifact => CleanValue a₀ more (.artifact artifact)) (.onHost
      (fun hp => host.decorate _ decorate hp.1.2 arguments artifact)
      fun hp => host.decorate_yields _ decorate hp.1.2 arguments artifact hp.2 (clean hp.1.1))
      fun next => ?_
    exact ih (fun hp => m hp.1.1.1) (fun call hc => h call (by simp [hc])) next fun hp => hp.2

/-- Every argument of the chain's calls tracks itself. -/
def ChainTracks (a₀ : Arena (σ → σ)) (more offset : Nat) (chain : Chain (Deferred σ Value)) : Prop :=
  ∀ call ∈ chain.root :: chain.modifiers, ∀ argument ∈ call.arguments,
    Tracking a₀ more offset (CleanValue a₀ more) argument.value

theorem tracks_build (engine : Engine σ) (host : engine.HostIsPure (CleanValue a₀ more))
    {chain : Chain (Deferred σ Value)} (h : ChainTracks a₀ more offset chain) :
    Tracking a₀ more offset (fun artifact => CleanValue a₀ more (.artifact artifact))
      (engine.build chain) := by
  intro frames n scope scope'
  refine .bindAlike (tracks_constructorOf engine _) fun construct => ?_
  refine .bindAlike (tracks_resolveArguments And.left chain.root.arguments
    (h chain.root (by simp))) fun arguments => ?_
  refine .bindAlike (P := fun artifact => CleanValue a₀ more (.artifact artifact)) (.onHost
    (fun hp => host.construct _ construct hp.1.2 arguments)
    fun hp => host.construct_yields _ construct hp.1.2 arguments hp.2) fun artifact => ?_
  exact .holding (tracks_applyModifiers engine host (fun hp => hp.1.1.1) chain.modifiers
    (fun call hc => h call (by simp [hc])) artifact fun hp => hp.2)

theorem tracks_evaluateItems (m : pre → a₀.Matches more frames scope scope')
    (items : List (Deferred σ Value))
    (h : ∀ item ∈ items, Tracking a₀ more offset (CleanValue a₀ more) item) :
    Tracks a₀ more offset pre frames n (Alike fun values => ∀ v ∈ values, CleanValue a₀ more v)
      (evaluateItems scope items) (evaluateItems scope' items) := by
  induction items generalizing pre with
  | nil =>
    refine .pure fun _ => ⟨rfl, fun v hv => ?_⟩
    cases hv
  | cons item rest ih =>
    refine .bindAlike ((h item (by simp) frames n scope scope').require m) fun value => ?_
    refine .bindAlike (.holding (ih (fun hp => m hp.1) fun i hi => h i (by simp [hi])))
      fun values => ?_
    refine .pure fun hp => ⟨rfl, fun v hv => ?_⟩
    obtain rfl | hv := List.mem_cons.1 hv
    · exact hp.1.2
    · exact hp.2 v hv

end

end Fluent.Engine

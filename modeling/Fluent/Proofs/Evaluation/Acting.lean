import Fluent.Proofs.Arena.Activity
import Fluent.Proofs.Evaluation.Outcome

/-!
# Evaluations are activities

Everything that an evaluation does to the arena is an activity, however the evaluation ends, if the
member functions are those of collections. The proof follows the meaning of expressions.

Main statements: `on_callFunction`, the scope of a call is there to be released; `acting_evaluate`,
`acting_render`, `acting_resolve` and `isActivity_apply`, what evaluations do are activities.
-/
namespace Fluent

open Arena

namespace EvalM

variable {σ α β : Type}

/-- What the action does to an arena is an activity, if the arena is as required, and if it answers,
the answer and the arena left behind are as promised. -/
def Acts (within : Bool) (pre : Arena (σ → σ) → Prop) (action : EvalM σ α)
    (post : α → Arena (σ → σ) → Prop) : Prop :=
  ∀ held w, w.arena.WellFormed → pre w.arena →
    Activity True within w.arena (action.on held w).2.arena ∧
      ∀ v, (action.on held w).1 = .ok v → post v (action.on held w).2.arena

variable {within : Bool} {pre : Arena (σ → σ) → Prop} {post : α → Arena (σ → σ) → Prop}

theorem Acts.bind {x : EvalM σ α} {f : α → EvalM σ β} {q : α → Arena (σ → σ) → Prop}
    {final : β → Arena (σ → σ) → Prop} (hx : Acts within pre x q)
    (hf : ∀ v, Acts within (q v) (f v) final) : Acts within pre (x >>= f) final := by
  intro held w wf hpre
  obtain ⟨first, answered⟩ := hx held w wf hpre
  rw [on_bind]
  generalize x.on held w = r at first answered
  obtain ⟨_ | v, w'⟩ := r
  · exact ⟨first, fun v h => by cases h⟩
  · obtain ⟨second, answered'⟩ := hf v held w' (first.wellFormed wf) (answered v rfl)
    exact ⟨first.trans second, answered'⟩

theorem Acts.weaken {x : EvalM σ α} {pre' : Arena (σ → σ) → Prop}
    {post' : α → Arena (σ → σ) → Prop} (hx : Acts within pre x post) (hpre : ∀ a, pre' a → pre a)
    (hpost : ∀ v a, post v a → post' v a) : Acts within pre' x post' := by
  intro held w wf h
  obtain ⟨activity, answered⟩ := hx held w wf (hpre _ h)
  exact ⟨activity, fun v hv => hpost v _ (answered v hv)⟩

theorem Acts.idle {x : EvalM σ α} (unchanged : ∀ held w, (x.on held w).2.arena = w.arena)
    (hpost : ∀ held w v, pre w.arena → (x.on held w).1 = .ok v → post v w.arena) :
    Acts within pre x post := by
  intro held w _ h
  rw [unchanged]
  exact ⟨.idle, fun v hv => hpost held w v h hv⟩

theorem Acts.pure {v : α} (h : ∀ a, pre a → post v a) :
    Acts within pre (Pure.pure v : EvalM σ α) post := by
  refine .idle (fun _ _ => rfl) ?_
  intro held w u hpre hu
  cases hu
  exact h _ hpre

theorem Acts.fail (e : EvalError) : Acts within pre (EvalM.fail e : EvalM σ α) post :=
  .idle (fun _ _ => rfl) fun _ _ _ _ hu => by cases hu

theorem Acts.ofExcept (result : Except EvalError α) (h : ∀ v a, pre a → post v a) :
    Acts within pre (EvalM.ofExcept result : EvalM σ α) post :=
  .idle (fun _ _ => by rw [on_ofExcept]) fun _ _ v hpre _ => h v _ hpre

theorem Acts.onHost (action : HostM σ α) (h : ∀ v a, pre a → post v a) :
    Acts within pre (EvalM.onHost action) post :=
  .idle (fun _ _ => by rw [on_onHost]) fun _ _ v hpre _ => h v _ hpre

theorem Acts.holding {values : List Value} {x : EvalM σ α} (hx : Acts within pre x post) :
    Acts within pre (EvalM.holding values x) post :=
  fun held w wf h => hx (values ++ held) w wf h

theorem Acts.inList {x : EvalM σ α} (hx : Acts false pre x post) : Acts true pre x post := by
  intro held w wf h
  obtain ⟨activity, answered⟩ := hx held w wf h
  exact ⟨activity.inList, answered⟩

/-- What the action does to any arena is an activity. -/
abbrev IsActivity (action : EvalM σ α) : Prop :=
  Acts false (fun _ => True) action fun _ _ => True

theorem Acts.isActivity {x : EvalM σ α} (hx : Acts false (fun _ => True) x post) : IsActivity x :=
  hx.weaken (fun _ h => h) fun _ _ _ => trivial

theorem IsActivity.bind {x : EvalM σ α} {f : α → EvalM σ β} (hx : IsActivity x)
    (hf : ∀ v, IsActivity (f v)) : IsActivity (x >>= f) :=
  Acts.bind hx hf

theorem isActivity_pure (v : α) : IsActivity (pure v : EvalM σ α) :=
  .pure fun _ _ => trivial

theorem isActivity_fail (e : EvalError) : IsActivity (EvalM.fail e : EvalM σ α) :=
  .fail e

theorem isActivity_ofExcept (result : Except EvalError α) :
    IsActivity (EvalM.ofExcept result : EvalM σ α) :=
  .ofExcept result fun _ _ _ => trivial

theorem isActivity_onHost (action : HostM σ α) : IsActivity (EvalM.onHost action) :=
  .onHost action fun _ _ _ => trivial

/-- Writes to one live scope all land, and the observers that are called change no arena. -/
theorem on_forM_define {id : ScopeId} (items : List β) (name : β → String) (value : β → Value)
    (held : List Value) (w : World σ) (live : w.arena.isLive id = true) :
    ∃ w', (items.forM fun item => notifying (define id (name item) (value item))).on held w =
      (.ok (), w') ∧ FillsWith (items.map value) id w.arena w'.arena ∧ w'.kept = w.kept := by
  induction items generalizing w with
  | nil => exact ⟨w, rfl, .refl, rfl⟩
  | cons item rest ih =>
    obtain ⟨s, here⟩ := (isLive_iff _ _).1 live
    have there := scope?_written here (name item) (value item) id
    rw [if_pos rfl] at there
    obtain ⟨w', answered, filled, kept⟩ := ih
      (notified { w with arena := w.arena.written id s (name item) (value item) }
        (if s.kind = .object then s.observers else []))
      ((isLive_iff _ _).2 ⟨_, there⟩)
    have filled := filled.mono fun v mem => List.mem_cons_of_mem (value item) mem
    refine ⟨w', ?_, .head ⟨s, name item, value item, List.mem_cons_self, here, rfl⟩ filled, kept⟩
    rw [← answered]
    show (notifying (define id (name item) (value item)) >>= fun _ =>
      rest.forM fun item => notifying (define id (name item) (value item))).on held w = _
    rw [on_bind, on_notifying, on_define, here]

/-- An object is made after others are reclaimed, and then filled. -/
theorem on_newObject (members : List (String × Value)) (held : List Value) (w : World σ)
    (wf : w.arena.WellFormed) :
    ∃ id a w', (w.arena.reclaim (members.map (·.2) ++ held ++ w.kept)).2.allocate
        (blank .object (some global)) = (id, a) ∧
      FillsWith (members.map Prod.snd) id a w'.arena ∧ w'.kept = w.kept ∧
      (EvalM.newObject members : EvalM σ ScopeId).on held w = (.ok id, w') := by
  generalize hroots : members.map (·.2) ++ held ++ w.kept = roots
  cases made : (w.arena.reclaim roots).2.allocate (blank .object (some global)) with
  | mk id a =>
    have there := ((w.arena.turnovers_reclaim roots).wellFormed wf).scope?_of_allocate_eq made id
    rw [if_pos rfl] at there
    obtain ⟨w', answered, filled, kept⟩ := on_forM_define members Prod.fst Prod.snd held
      { w with arena := a } ((isLive_iff _ _).2 ⟨_, there⟩)
    have created : (onArena (Arena.newObject roots (some global))).on held w =
        (.ok id, { w with arena := a }) := on_onArena_ok (by rw [wf.on_newObject, made]) held
    refine ⟨id, a, w', rfl, filled, kept, ?_⟩
    simp only [EvalM.newObject, on_bind, on_read, on_get, hroots, created, answered, on_pure]

theorem isActivity_newObject (members : List (String × Value)) :
    IsActivity (EvalM.newObject members : EvalM σ ScopeId) := by
  intro held w wf _
  obtain ⟨id, a, w', made, filled, -, answered⟩ := on_newObject members held w wf
  rw [answered]
  exact ⟨.object trivial _ made filled.fills, fun _ _ => trivial⟩

end EvalM

namespace Engine

open EvalM

variable {σ : Type}

/-- In every scope, what the evaluation does to an arena is an activity. -/
def Acting {α : Type} (evaluation : Deferred σ α) : Prop :=
  ∀ scope, IsActivity (evaluation scope)

/-- Arguments are resolved to as many values. -/
theorem acts_resolveFrom (scope : ScopeId) (arguments : List (Argument (Deferred σ Value)))
    (h : ∀ argument ∈ arguments, Acting argument.value) (index : Nat) :
    Acts true (fun _ => True) (resolveFrom scope index arguments)
      fun values _ => values.length = arguments.length := by
  induction arguments generalizing index with
  | nil => exact .pure fun _ _ => rfl
  | cons argument rest ih =>
    refine .bind (q := fun _ _ => True) ?_ fun _ => ?_
    · exact fun held w _ _ => ⟨.begin index, fun _ _ => trivial⟩
    refine .bind (h argument (by simp) scope).inList fun value => ?_
    refine .bind (ih (fun a ha => h a (by simp [ha])) (index + 1)).holding fun values => ?_
    exact .pure fun _ length => by simp [length]

/-- The list is closed however the arguments end. -/
theorem on_resolveArguments (arguments : List (Argument (Deferred σ Value))) (scope : ScopeId)
    (held : List Value) (w : World σ) :
    (resolveArguments arguments scope).on held w =
      match (resolveFrom scope 0 arguments).on held { w with arena := w.arena.openArguments } with
        | (result, w') => (result, { w' with arena := w'.arena.closeArguments }) := by
  rw [resolveArguments, on_bind, on_modify]
  simp only [on_ensuring, on_modify]

theorem acts_resolveArguments {within : Bool} {pre : Arena (σ → σ) → Prop} (scope : ScopeId)
    (arguments : List (Argument (Deferred σ Value)))
    (h : ∀ argument ∈ arguments, Acting argument.value) :
    Acts within pre (resolveArguments arguments scope) fun values a => values = [] → pre a := by
  intro held w wf hpre
  obtain ⟨activity, answered⟩ := acts_resolveFrom scope arguments h 0 held
    { w with arena := w.arena.openArguments } wf.openArguments trivial
  rw [on_resolveArguments]
  refine ⟨.list activity, fun values hv empty => ?_⟩
  have length := answered values hv
  rw [empty] at length
  cases arguments with
  | nil => exact hpre
  | cons argument rest => cases length

/-- The activation of a function with a body: the scope that it is given, the parameters bound in it
and the body run in it. -/
def activate (run : Expr → Deferred σ Value) (frame : ScopeId) (parameters : List String)
    (body : Expr) (arguments : List (Argument Value)) : EvalM σ Value := do
  bindParameters frame parameters arguments
  run body frame

/-- An activation fills the scope that it is given, and then runs the body. -/
theorem activity_of_activate {run : Expr → Deferred σ Value} (hrun : ∀ body, Acting (run body))
    {frame : ScopeId} {parameters : List String} {body : Expr} {arguments : List (Argument Value)}
    {held : List Value} {w w' : World σ} (wf : w.arena.WellFormed)
    (live : w.arena.isLive frame = true) {result : Except Stop Value}
    (ended : (activate run frame parameters body arguments).on held w = (result, w')) :
    ∃ c, Fills frame w.arena c ∧ Activity True false c w'.arena := by
  obtain ⟨w₁, answered, filled, -⟩ := on_forM_define (parameters.zip arguments) Prod.fst
    (fun binding => binding.2.value) held w live
  have bound := filled.fills
  have ran : (run body frame).on held w₁ = (result, w') := by
    rw [activate, on_bind, bindParameters, answered] at ended
    exact ended
  have activity := (hrun body frame held w₁ (bound.changes.wellFormed wf) trivial).1
  rw [ran] at activity
  exact ⟨w₁.arena, bound, activity⟩

/-- A function's scope is live when the activation ends, however that ends, so releasing it does not
fail and the end of the activation is the end of the call. -/
theorem on_callFunction (engine : Engine σ) {run : Expr → Deferred σ Value}
    (hrun : ∀ body, Acting (run body)) {function : Function} {parameters : List String}
    {body : Expr} {closure : Option ScopeId}
    (hbody : function.body = .expression parameters body closure)
    {arguments : List (Argument Value)} (hlength : parameters.length = arguments.length)
    {receiver : Option ScopeId} {parent : ScopeId}
    (hparent : (receiver <|> closure).getD global = parent) (held : List Value) (w : World σ)
    (wf : w.arena.WellFormed) (live : w.arena.isLive parent = true) {frame : ScopeId}
    {a : Arena (σ → σ)} (made : w.arena.allocate (blank .function (some parent)) = (frame, a))
    {result : Except Stop Value} {w' : World σ}
    (ended : (activate run frame parameters body arguments).on held { w with arena := a } =
      (result, w')) :
    (popFunction frame).on w'.arena = (.ok (), w'.arena.release frame.index) ∧
      (engine.callFunction run function arguments receiver).on held w =
        (result, { w' with arena := w'.arena.release frame.index }) ∧
      Activity True false w.arena (w'.arena.release frame.index) := by
  have wfa : a.WellFormed := (Turnover.of_allocate_eq (by simp) made).wellFormed wf
  have there := wf.scope?_of_allocate_eq made frame
  rw [if_pos rfl] at there
  obtain ⟨c, bound, activity⟩ := activity_of_activate hrun wfa ((isLive_iff _ _).2 ⟨_, there⟩) ended
  obtain ⟨s, here, function, _⟩ := wf.exists_newest_frame made bound activity
  have popped : (popFunction frame).on w'.arena = (.ok (), w'.arena.release frame.index) := by
    rw [on_popFunction, here]
    simp [function]
  refine ⟨popped, ?_, .call live made bound activity⟩
  obtain ⟨p, parentLive⟩ := (isLive_iff _ _).1 live
  have opened : (EvalM.onArena (pushFunction parent)).on held w =
      (.ok frame, { w with arena := a }) :=
    on_onArena_ok (by simp only [on_pushFunction, parentLive, made]) held
  have released : (EvalM.onArena (popFunction frame)).on held w' =
      (.ok (), { w' with arena := w'.arena.release frame.index }) := on_onArena_ok popped held
  rw [activate] at ended
  simp only [callFunction, hbody, hlength, ne_eq, not_true_eq_false, if_false, hparent, on_bind,
    opened, on_ensuring]
  rw [on_bind] at ended
  rw [ended, released]

/-- The call of a function inside a scope that is gone fails, and leaves the world as it is. -/
theorem on_callFunction_of_stale (engine : Engine σ) (run : Expr → Deferred σ Value)
    {function : Function} {parameters : List String} {body : Expr} {closure : Option ScopeId}
    (hbody : function.body = .expression parameters body closure)
    {arguments : List (Argument Value)} (hlength : parameters.length = arguments.length)
    {receiver : Option ScopeId} {parent : ScopeId}
    (hparent : (receiver <|> closure).getD global = parent) (held : List Value) {w : World σ}
    (stale : w.arena.scope? parent = none) :
    (engine.callFunction run function arguments receiver).on held w =
      (.error (.failed (.invalidScope parent.index)), w) := by
  have refused : (EvalM.onArena (pushFunction parent)).on held w =
      (.error (.failed (.invalidScope parent.index)), w) :=
    on_onArena_error (by simp only [on_pushFunction, stale]) held
  simp only [callFunction, hbody, hlength, ne_eq, not_true_eq_false, if_false, hparent, on_bind,
    refused]

theorem isActivity_callFunction (engine : Engine σ) {run : Expr → Deferred σ Value}
    (hrun : ∀ body, Acting (run body)) (function : Function) (arguments : List (Argument Value))
    (receiver : Option ScopeId) :
    IsActivity (engine.callFunction run function arguments receiver) := by
  cases hbody : function.body with
  | native key =>
    simp only [callFunction, hbody]
    exact isActivity_onHost _
  | expression parameters body closure =>
    by_cases hlength : parameters.length = arguments.length
    · intro held w wf _
      refine ⟨?_, fun _ _ => trivial⟩
      by_cases live : w.arena.isLive ((receiver <|> closure).getD global) = true
      · obtain ⟨_, answered, activity⟩ :=
          engine.on_callFunction hrun hbody hlength rfl held w wf live rfl rfl
        rw [answered]
        exact activity
      · have stale : w.arena.scope? ((receiver <|> closure).getD global) = none := by
          simpa [isLive] using live
        rw [engine.on_callFunction_of_stale run hbody hlength rfl held stale]
        exact .idle
    · simp only [callFunction, hbody, ne_eq, hlength, not_false_eq_true, if_true]
      exact isActivity_fail _

theorem isActivity_makeValue (engine : Engine σ) (type : RuntimeType Value)
    (arguments : List (Argument Value)) : IsActivity (engine.makeValue type arguments) := by
  unfold makeValue
  split
  · exact isActivity_fail _
  · exact isActivity_ofExcept _
  · exact isActivity_ofExcept _
  · refine (isActivity_ofExcept _).bind fun build => ?_
    refine (isActivity_onHost _).bind fun artifact => ?_
    exact (isActivity_newObject _).bind fun object => isActivity_pure _
  · exact isActivity_fail _

theorem acting_withArguments {α : Type} {arguments : List (Argument (Deferred σ Value))}
    (h : ∀ argument ∈ arguments, Acting argument.value)
    {use : List (Argument Value) → EvalM σ α} (huse : ∀ values, IsActivity (use values))
    (scope : ScopeId) : IsActivity (resolveArguments arguments scope >>= use) :=
  IsActivity.bind (acts_resolveArguments scope arguments h).isActivity huse

theorem acting_callType (engine : Engine σ) (type : RuntimeType Value)
    {arguments : List (Argument (Deferred σ Value))}
    (h : ∀ argument ∈ arguments, Acting argument.value) :
    Acting (engine.callType type arguments) := fun scope =>
  Acts.holding (acting_withArguments h (fun _ => (engine.isActivity_makeValue _ _).holding) scope)

theorem isActivity_applyModifiers (engine : Engine σ) (scope : ScopeId)
    (modifiers : List (Call (Deferred σ Value)))
    (h : ∀ call ∈ modifiers, ∀ argument ∈ call.arguments, Acting argument.value)
    (artifact : Artifact Value) : IsActivity (engine.applyModifiers scope artifact modifiers) := by
  induction modifiers generalizing artifact with
  | nil => exact isActivity_pure _
  | cons modifier rest ih =>
    refine (isActivity_ofExcept _).bind fun decorate => ?_
    have resolved : IsActivity (resolveArguments modifier.arguments scope) :=
      (acts_resolveArguments scope _ (h modifier (by simp))).isActivity
    refine (Acts.holding resolved).bind fun arguments => ?_
    refine (isActivity_onHost _).bind fun artifact => ?_
    exact ih (fun call hc => h call (by simp [hc])) artifact

/-- What every argument of the chain's calls means acts. -/
def ChainActs (chain : Chain (Deferred σ Value)) : Prop :=
  ∀ call ∈ chain.root :: chain.modifiers, ∀ argument ∈ call.arguments, Acting argument.value

theorem acting_build (engine : Engine σ) {chain : Chain (Deferred σ Value)} (h : ChainActs chain) :
    Acting (engine.build chain) := by
  intro scope
  refine (isActivity_ofExcept _).bind fun construct => ?_
  refine acting_withArguments (h chain.root (by simp)) (fun arguments => ?_) scope
  refine (isActivity_onHost _).bind fun artifact => ?_
  exact (engine.isActivity_applyModifiers scope chain.modifiers
    (fun call hc => h call (by simp [hc])) artifact).holding

theorem isActivity_evaluateItems (scope : ScopeId) (items : List (Deferred σ Value))
    (h : ∀ item ∈ items, Acting item) : IsActivity (evaluateItems scope items) := by
  induction items with
  | nil => exact isActivity_pure _
  | cons item rest ih =>
    refine IsActivity.bind (h item (by simp) scope) fun value => ?_
    refine IsActivity.bind (Acts.holding (ih fun i hi => h i (by simp [hi]))) fun values => ?_
    exact isActivity_pure _

/-- The binding that a value is said to have been read from reads as that value. -/
def Located (read : Value × Option Place) (a : Arena (σ → σ)) : Prop :=
  ∀ place, read.2 = some place → a.findLocal? place.scope place.name = some read.1

theorem located_none (value : Value) (a : Arena (σ → σ)) : Located (value, none) a :=
  fun _ h => by cases h

theorem acts_resolve? (scope : ScopeId) (name : String) :
    IsActivity (EvalM.resolve? scope name : EvalM σ (Option ScopeId)) :=
  .idle (fun _ _ => rfl) fun _ _ _ _ _ => trivial

/-- What a binding is found to be, it reads as. -/
theorem acts_findLocal? (scope : ScopeId) (name : String) :
    Acts false (fun _ => True) (EvalM.findLocal? scope name : EvalM σ (Option Value))
      fun found a => ∀ value, found = some value → Located (value, some ⟨scope, name⟩) a := by
  refine .idle (fun _ _ => rfl) ?_
  intro held w found _ answered value hvalue place hplace
  cases hplace
  rw [on_findLocal?] at answered
  cases answered
  exact hvalue

theorem acts_readName (name : String) (scope : ScopeId) :
    Acts false (fun _ => True) (readName (σ := σ) name scope) Located := by
  refine .bind (acts_resolve? scope name) fun owner => ?_
  cases owner with
  | none => exact .fail _
  | some owner =>
    refine .bind ((acts_findLocal? owner name).weaken (fun _ _ => trivial) fun _ _ h => h) ?_
    intro found
    cases found with
    | none => exact .fail _
    | some value => exact .pure fun a h => h value rfl

theorem acts_readMemberByKind (receiver : Value) (name : String) (whole : Expr) :
    Acts false (fun _ => True) (readMemberByKind (σ := σ) receiver name whole) Located := by
  unfold readMemberByKind
  cases memberValue? receiver name with
  | some value => exact .pure fun a _ => located_none _ a
  | none =>
    cases whole.path? with
    | some names => exact .pure fun a _ => located_none _ a
    | none => exact .fail _

theorem acts_readMemberOf (receiver : Value) (name : String) (whole : Expr) :
    Acts false (fun _ => True) (readMemberOf (σ := σ) receiver name whole) Located := by
  unfold readMemberOf
  cases receiver with
  | object object =>
    refine .bind (acts_findLocal? object name) fun found => ?_
    cases found with
    | none => exact (acts_readMemberByKind _ name whole).weaken (fun _ _ => trivial) fun _ _ h => h
    | some value => exact .pure fun a h => h value rfl
  | path names => exact .pure fun a _ => located_none _ a
  | _ => exact acts_readMemberByKind _ name whole

/-- What the expression means acts, says where it was read, and is a chain of such. -/
structure MeaningActs (meaning : Meaning σ) : Prop where
  read : ∀ scope, Acts false (fun _ => True) (meaning.read scope) Located
  chain : ∀ chain, meaning.chain? = some chain → ChainActs chain

theorem MeaningActs.value {meaning : Meaning σ} (h : MeaningActs meaning) :
    Acting meaning.value := fun scope =>
  IsActivity.bind (h.read scope).isActivity fun _ => isActivity_pure _

theorem acts_readMember (base : Expr) {meaning : Meaning σ} (h : MeaningActs meaning)
    (name : String) (scope : ScopeId) :
    Acts false (fun _ => True) (readMember base meaning name scope) Located := by
  have member : Acts false (fun _ => True) (meaning.read scope >>= fun found =>
      readMemberOf found.1 name (.member base name)) Located :=
    .bind (h.read scope).isActivity fun found => acts_readMemberOf found.1 name _
  unfold readMember
  cases plainName? base with
  | none => exact member
  | some head =>
    refine .bind (acts_resolve? scope head) fun owner => ?_
    cases owner with
    | none => exact .pure fun a _ => located_none _ a
    | some owner => exact member

/-- All registered member functions are those that every interpreter has. -/
def HasBuiltInMembers (engine : Engine σ) : Prop :=
  ∀ name handler, engine.registry.members.find? name = some handler →
    ∃ known, (known, handler) ∈ Collection.handlers

theorem isActivity_contains (call : MemberCall) :
    IsActivity (Collection.contains call : EvalM σ Value) := by
  unfold Collection.contains
  split
  · split
    · exact isActivity_pure _
    · exact isActivity_pure _
    · exact isActivity_fail _
    · exact isActivity_fail _
  · exact isActivity_fail _

/-- Shuffling changes no binding, and fails if there are arguments. -/
theorem acts_shuffled {p : Arena (σ → σ) → Prop} (call : MemberCall) :
    Acts false p (Collection.shuffled call) fun value a =>
      call.arguments = [] ∧ Value.Rearranged (some call.receiver) (some value) ∧ p a := by
  refine .bind (q := fun _ a => call.arguments = [] ∧ p a) ?_ fun _ => ?_
  · unfold MemberCall.expectNoArguments
    split
    · rename_i empty
      exact .pure fun a h => ⟨List.isEmpty_iff.1 empty, h⟩
    · exact .fail _
  refine .bind (q := fun items a =>
    call.receiver = .array items ∧ call.arguments = [] ∧ p a) ?_ fun items => ?_
  · unfold MemberCall.arrayReceiver
    cases receiver : call.receiver with
    | array items => exact .pure fun a h => ⟨rfl, h⟩
    | _ => exact .fail _
  refine .bind (q := fun shuffled a =>
    items.Perm shuffled ∧ call.receiver = .array items ∧ call.arguments = [] ∧ p a) ?_ ?_
  · refine .idle (fun _ _ => rfl) ?_
    intro held w shuffled h answered
    rw [on_shuffled] at answered
    cases answered
    exact ⟨(w.random.shuffle_perm items).symm, h⟩
  · intro shuffled
    refine .pure fun a h => ?_
    obtain ⟨perm, receiver, empty, h⟩ := h
    exact ⟨empty, .inr ⟨items, shuffled, by rw [receiver], rfl, perm⟩, h⟩

/-- A binding is replaced by what it was, up to the order of items. -/
theorem acts_writeBack (call : MemberCall) (value : Value) :
    Acts false (fun a : Arena (σ → σ) => Value.Rearranged (some call.receiver) (some value) ∧
      Located (call.receiver, call.place) a) (call.writeBack value) fun _ _ => True := by
  unfold MemberCall.writeBack
  split
  · rename_i place hplace
    intro held w wf h
    obtain ⟨same, located⟩ := h
    have reads : w.arena.findLocal? place.scope place.name = some call.receiver :=
      located place hplace
    refine ⟨?_, fun _ _ => trivial⟩
    have landed := w.arena.on_assign_of_isSome place.scope place.name value (by rw [reads]; rfl)
    obtain ⟨s, live, landed⟩ | ⟨e, failed⟩ := landed
    · simp only [on_notifying, landed]
      exact .shuffle live (reads ▸ same)
    · simp only [on_notifying, failed]
      exact .idle
  · exact .fail _

theorem hasBuiltInMembers_withCollections (policy : DuplicatePolicy)
    (native : Function → List (Argument Value) → HostM σ Value) (activations : Nat) :
    HasBuiltInMembers { registry := .withCollections policy, native := native,
                        activations := activations } :=
  fun name _ found => ⟨name, Table.mem_of_find?_ofList found⟩

/-- A member function of collections replaces at most the array that it was called on, by the same
items in another order. With arguments it replaces nothing. -/
theorem acts_handler {name : String} {handler : MemberFunction σ}
    (known : (name, handler) ∈ Collection.handlers) (call : MemberCall) :
    Acts false (fun a => call.arguments = [] → Located (call.receiver, call.place) a) (handler call)
      fun _ _ => True := by
  simp only [Collection.handlers, List.mem_cons, Prod.mk.injEq, List.not_mem_nil, or_false] at known
  obtain ⟨-, rfl⟩ | ⟨-, rfl⟩ | ⟨-, rfl⟩ := known
  · exact (isActivity_contains call).weaken (fun _ _ => trivial) fun _ _ h => h
  · refine .bind (acts_shuffled call) fun value => ?_
    refine .bind (q := fun _ _ => True) ?_ fun _ => isActivity_pure value
    exact (acts_writeBack call value).weaken (fun a h => ⟨h.2.1, h.2.2 h.1⟩) fun _ _ h => h
  · exact (acts_shuffled (p := fun _ => True) call).weaken (fun _ _ => trivial) fun _ _ _ => trivial

/-- Between the reading of the receiver and the call, arguments are resolved. Where there are none,
the receiver still reads as it did. -/
theorem acts_callHandler (engine : Engine σ) (hm : engine.HasBuiltInMembers) (receiver : Value)
    (place : Option Place) (name : String) {arguments : List (Argument (Deferred σ Value))}
    (h : ∀ argument ∈ arguments, Acting argument.value) (scope : ScopeId) :
    Acts false (Located (receiver, place)) (engine.callHandler receiver place name arguments scope)
      fun _ _ => True := by
  have found : Acts false (Located (receiver, place))
      (EvalM.ofExcept (engine.registry.memberOf name) : EvalM σ (MemberFunction σ)) fun handler a =>
        (∃ known, (known, handler) ∈ Collection.handlers) ∧ Located (receiver, place) a := by
    unfold Registry.memberOf
    cases hfind : engine.registry.members.find? name with
    | none => exact .fail _
    | some handler => exact .pure fun a located => ⟨hm name handler hfind, located⟩
  refine .bind found fun handler held w wf hpre => ?_
  obtain ⟨⟨known, mem⟩, located⟩ := hpre
  have answered : ∀ values, Acts false (fun a => values = [] → Located (receiver, place) a)
      (handler ⟨name, receiver, place, values⟩) fun _ _ => True :=
    fun values => acts_handler mem ⟨name, receiver, place, values⟩
  have resolved : Acts false (Located (receiver, place)) (resolveArguments arguments scope)
      fun values a => values = [] → Located (receiver, place) a :=
    acts_resolveArguments scope arguments h
  exact Acts.bind resolved (fun values => (answered values).holding) held w wf located

theorem acting_callResolved (engine : Engine σ) {run : Expr → Deferred σ Value}
    (hrun : ∀ body, Acting (run body)) (function : Function)
    {arguments : List (Argument (Deferred σ Value))}
    (h : ∀ argument ∈ arguments, Acting argument.value) (receiver : Option ScopeId) :
    Acting (engine.callResolved run function arguments receiver) :=
  acting_withArguments h fun _ => engine.isActivity_callFunction hrun function _ receiver

theorem acting_callName (engine : Engine σ) {run : Expr → Deferred σ Value}
    (hrun : ∀ body, Acting (run body)) (name : String)
    {arguments : List (Argument (Deferred σ Value))}
    (h : ∀ argument ∈ arguments, Acting argument.value) :
    Acting (engine.callName run name arguments) := by
  intro scope
  refine IsActivity.bind (acts_readName name scope).isActivity fun read => ?_
  split
  · exact engine.acting_callResolved hrun _ h none scope
  · exact engine.acting_callType _ h scope
  · exact isActivity_fail _

theorem acting_callValue (engine : Engine σ) {run : Expr → Deferred σ Value}
    (hrun : ∀ body, Acting (run body)) (callee : Expr) {meaning : Meaning σ}
    (hmeaning : MeaningActs meaning) {arguments : List (Argument (Deferred σ Value))}
    (h : ∀ argument ∈ arguments, Acting argument.value) :
    Acting (engine.callValue run callee meaning arguments) := by
  intro scope
  refine IsActivity.bind (hmeaning.value scope) fun value => ?_
  split
  · exact engine.acting_callResolved hrun _ h none scope
  · exact isActivity_fail _

theorem acting_callMember (engine : Engine σ) (hm : engine.HasBuiltInMembers)
    {run : Expr → Deferred σ Value} (hrun : ∀ body, Acting (run body)) {base : Meaning σ}
    (hbase : MeaningActs base) (name : String) {arguments : List (Argument (Deferred σ Value))}
    (h : ∀ argument ∈ arguments, Acting argument.value) :
    Acting (engine.callMember run base name arguments) := by
  intro scope
  refine Acts.bind (hbase.read scope) fun read => Acts.holding ?_
  obtain ⟨receiver, place⟩ := read
  dsimp only
  split
  · exact (engine.acting_callType _ h scope).weaken (fun _ _ => trivial) fun _ _ h => h
  · refine .bind (q := fun _ => Located (receiver, place)) ?_ fun own => ?_
    · unfold ownMember?
      split
      · exact .idle (fun _ _ => rfl) fun _ _ _ h _ => h
      · exact .pure fun _ h => h
    · split
      · exact (engine.acting_callResolved hrun _ h _ scope).weaken (fun _ _ => trivial)
          fun _ _ h => h
      · exact .fail _
      · exact engine.acts_callHandler hm receiver place name h scope

theorem isActivity_isView (engine : Engine σ) (chain : Chain (Deferred σ Value)) (scope : ScopeId) :
    IsActivity (engine.isView chain scope) :=
  IsActivity.bind (acts_resolve? scope _) fun _ => isActivity_pure _

theorem meaningActs_callMeaning (engine : Engine σ) {chain? : Option (Chain (Deferred σ Value))}
    (hchain : ∀ chain, chain? = some chain → ChainActs chain) {call : Deferred σ Value}
    (hcall : Acting call) : MeaningActs (engine.callMeaning chain? call) where
  chain := hchain
  read scope := by
    have called : Acts false (fun _ => True) (do return (← call scope, none)) (Located (σ := σ)) :=
      .bind (hcall scope) fun value => .pure fun a _ => located_none value a
    unfold callMeaning
    dsimp only
    split
    · rename_i chain
      refine .bind (engine.isActivity_isView chain scope) fun view => ?_
      split
      · refine .bind (engine.acting_build (hchain chain rfl) scope) fun artifact => ?_
        exact .pure fun a _ => located_none _ a
      · exact called
    · exact called

/-- What any expression means acts, if bodies of functions do. -/
theorem meaningActs_meaning (engine : Engine σ) (hm : engine.HasBuiltInMembers)
    {run : Expr → Deferred σ Value} (hrun : ∀ body, Acting (run body)) (e : Expr) :
    MeaningActs (engine.meaning run e) := by
  have none_chain : ∀ {read : Deferred σ (Value × Option Place)},
      (∀ scope, Acts false (fun _ => True) (read scope) Located) → MeaningActs ⟨read, none⟩ :=
    fun h => ⟨h, fun _ hc => by cases hc⟩
  have acting_arguments : ∀ arguments : List (Argument Expr),
      (∀ a ∈ arguments, MeaningActs (engine.meaning run a.value)) →
        ∀ argument ∈ engine.argumentMeanings run arguments, Acting argument.value := by
    intro arguments h argument ha
    obtain ⟨written, hw, same⟩ := exists_of_mem_argumentMeanings ha
    rw [same]
    exact (h written hw).value
  induction e using Expr.meaning_induction with
  | literal l =>
    rw [meaning]
    exact none_chain fun _ => .pure fun a _ => located_none _ a
  | name n =>
    rw [meaning]
    exact none_chain (acts_readName n)
  | implicitMember n =>
    rw [meaning]
    exact none_chain fun _ => .pure fun a _ => located_none _ a
  | member base n ih =>
    rw [meaning]
    exact none_chain (acts_readMember base ih n)
  | array items ih =>
    rw [meaning, itemMeanings_eq_map]
    have acting : ∀ item ∈ items.map fun e => (engine.meaning run e).value, Acting item := by
      intro item hi
      obtain ⟨written, hw, rfl⟩ := List.mem_map.1 hi
      exact (ih written hw).value
    refine none_chain fun scope => .bind (isActivity_evaluateItems scope _ acting) fun values => ?_
    exact .pure fun a _ => located_none _ a
  | callName n arguments ih =>
    rw [meaning]
    have acting := acting_arguments arguments ih
    refine engine.meaningActs_callMeaning ?_ (engine.acting_callName hrun n acting)
    intro chain hc call hcall
    cases hc
    obtain rfl := List.mem_singleton.1 hcall
    exact acting
  | callMember base n arguments ihbase ih =>
    rw [meaning]
    have acting := acting_arguments arguments ih
    refine engine.meaningActs_callMeaning ?_ (engine.acting_callMember hm hrun ihbase n acting)
    intro chain hc call hcall
    obtain ⟨inner, found, rfl⟩ := Option.map_eq_some_iff.1 hc
    obtain hcall | rfl := Chain.mem_push.1 hcall
    · exact ihbase.chain inner found call hcall
    · exact acting
  | callImplicit n arguments =>
    rw [meaning]
    exact engine.meaningActs_callMeaning (fun _ hc => by cases hc) fun _ => isActivity_fail _
  | callValue callee arguments hname hmember himplicit ihcallee ih =>
    rw [meaning]
    · exact engine.meaningActs_callMeaning (fun _ hc => by cases hc)
        (engine.acting_callValue hrun callee ihcallee (acting_arguments arguments ih))
    · exact hname
    · exact hmember
    · exact himplicit

theorem acting_run (engine : Engine σ) (hm : engine.HasBuiltInMembers) (depth : Nat) (body : Expr) :
    Acting (engine.run depth body) := by
  induction depth generalizing body with
  | zero => exact fun _ => .idle (fun _ _ => rfl) fun _ _ _ _ _ => trivial
  | succ depth ih => exact (engine.meaningActs_meaning hm ih body).value

theorem acting_evaluate (engine : Engine σ) (hm : engine.HasBuiltInMembers) (e : Expr) :
    Acting (engine.evaluate e) :=
  (engine.meaningActs_meaning hm (engine.acting_run hm engine.activations) e).value

theorem acting_resolve (engine : Engine σ) (hm : engine.HasBuiltInMembers)
    (arguments : List (Argument Expr)) : Acting (engine.resolve arguments) := by
  refine fun scope => (acts_resolveArguments scope _ ?_).isActivity
  intro argument ha
  obtain ⟨written, _, rfl⟩ := List.mem_map.1 ha
  exact engine.acting_evaluate hm written.value

theorem acting_render (engine : Engine σ) (hm : engine.HasBuiltInMembers) (e : Expr) :
    Acting (engine.render e) := by
  intro scope
  unfold render
  split
  · rename_i chain _
    refine engine.acting_build ?_ scope
    intro call hcall argument ha
    have mapped : call ∈ (chain.root :: chain.modifiers).map (Call.map engine.evaluate) := hcall
    obtain ⟨written, _, rfl⟩ := List.mem_map.1 mapped
    obtain ⟨part, _, rfl⟩ := List.mem_map.1 ha
    exact engine.acting_evaluate hm part.value
  · exact isActivity_fail _

theorem isActivity_apply (engine : Engine σ) (hm : engine.HasBuiltInMembers) (function : Function)
    (arguments : List (Argument Value)) (receiver : Option ScopeId) :
    IsActivity (engine.apply function arguments receiver) :=
  engine.isActivity_callFunction (engine.acting_run hm engine.activations) function arguments receiver

end Engine

end Fluent

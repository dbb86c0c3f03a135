import Fluent.Proofs.Evaluation.Refusal

/-!
# Which observers are called

A write to an object calls the observers that have been attached to it since it was made, each of
them once and in that order, after the value has been stored. The object is the one that is written
to, which for an assignment may be far out from where it began. Nothing else calls an observer.

Main statements: `lands_iff`, where a write lands; `observers_afterAll`, what a scope's observers
are; and `observers_called_once_per_write`.
-/
namespace Fluent

/-- A call of an observer, and the arena as it is when the call is made. -/
structure Notice (ο : Type) where
  observer : ο
  arena : Arena ο

namespace Operation

open Arena ArenaM

variable {ο : Type}

/-! ### Calls -/

/-- The calls of observers that the operation leads to. They are made once it is done. -/
def notices (op : Operation ο) (a : Arena ο) : List (Notice ο) :=
  ((op.perform.on a).1.toOption.getD []).map fun observer => ⟨observer, op.after a⟩

/-- The calls of observers that the operations lead to, one operation after the other. -/
def allNotices : List (Operation ο) → Arena ο → List (Notice ο)
  | [], _ => []
  | op :: ops, a => op.notices a ++ allNotices ops (op.after a)

/-- The world after the operations, each of which calls its observers. -/
def carriedOut {σ : Type} (held : List Value) : List (Operation (σ → σ)) → World σ → World σ
  | [], w => w
  | op :: ops, w => carriedOut held ops ((EvalM.notifying op.perform).on held w).2

/-- The observer that the operation attaches to the scope of the handle, if it does that. -/
def attaches? (id : ScopeId) (op : Operation ο) (a : Arena ο) : Option ο :=
  match op with
  | observe scope observer =>
    if scope = id then ((Arena.observe scope observer).on a).1.toOption.map fun _ => observer
    else none
  | _ => none

/-- The observers that the operations attach to the scope that has the handle in the end, in order,
after those attached so far. If one of them makes a scope under the handle, what was attached before
belonged to another. -/
def attached (id : ScopeId) : List (Operation ο) → Arena ο → List ο → List ο
  | [], _, sofar => sofar
  | op :: ops, a, sofar =>
    attached id ops (op.after a)
      (if op.answer? a = some id then [] else sofar ++ (op.attaches? id a).toList)

/-- The operation writes the value to a binding of the live scope: as a definition there, as an
assignment for which it is the nearest scope that binds the name, or as one in it for which there is
none. -/
inductive Lands (a : Arena ο) : Operation ο → Place → Value → Prop where
  | define {scope : ScopeId} {name : String} {value : Value} (live : a.isLive scope = true) :
      Lands a (.define scope name value) ⟨scope, name⟩ value
  | nearest {scope owner : ScopeId} {name : String} {value : Value}
      (nearest : a.Nearest name scope owner) :
      Lands a (.assign scope name value) ⟨owner, name⟩ value
  | fallback {scope : ScopeId} {name : String} {value : Value} (live : a.isLive scope = true)
      (unbound : ∀ outer, a.Inside scope outer → a.findLocal? outer name = none)
      (policy : a.policy = .defineLocal) : Lands a (.assign scope name value) ⟨scope, name⟩ value

/-! ### Writes -/

variable {a : Arena ο} {op : Operation ο} {id : ScopeId}

/-- What an operation writes, and where. -/
theorem lands_iff (wf : a.WellFormed) {place : Place} {value : Value} :
    op.Lands a place value ↔ ∃ created, op.write? a = some ⟨place, value, created⟩ := by
  constructor
  · rintro (⟨live⟩ | ⟨nearest⟩ | ⟨live, unbound, policy⟩)
    · obtain ⟨s, here⟩ := (isLive_iff _ _).1 live
      exact ⟨s.created, Option.map_eq_some_iff.2 ⟨s, here, rfl⟩⟩
    · obtain ⟨s, there⟩ := (isLive_iff _ _).1 nearest.isLive
      simp only [write?, wf.resolve?_eq_some_iff.2 nearest]
      exact ⟨s.created, Option.map_eq_some_iff.2 ⟨s, there, rfl⟩⟩
    · obtain ⟨s, here⟩ := (isLive_iff _ _).1 live
      simp only [write?, wf.resolve?_eq_none_iff.2 unbound, policy]
      exact ⟨s.created, Option.map_eq_some_iff.2 ⟨s, here, rfl⟩⟩
  · rintro ⟨created, writes⟩
    cases op with
    | define scope name written =>
      obtain ⟨s, here, same⟩ := Option.map_eq_some_iff.1 writes
      cases same
      exact .define ((isLive_iff _ _).2 ⟨s, here⟩)
    | assign scope name written =>
      simp only [write?] at writes
      cases found : a.resolve? scope name with
      | some owner =>
        rw [found] at writes
        obtain ⟨s, there, same⟩ := Option.map_eq_some_iff.1 writes
        cases same
        exact .nearest (wf.resolve?_eq_some_iff.1 found)
      | none =>
        cases policy : a.policy with
        | strict =>
          rw [found, policy] at writes
          cases writes
        | defineLocal =>
          rw [found, policy] at writes
          obtain ⟨s, here, same⟩ := Option.map_eq_some_iff.1 writes
          cases same
          exact .fallback ((isLive_iff _ _).2 ⟨s, here⟩) (wf.resolve?_eq_none_iff.1 found) policy
    | _ => cases writes

/-- What a definition or an assignment comes to: a write to a live scope, whose observers are to be
called if it is an object's, or a failure with nothing done. -/
inductive Writes (a : Arena ο) : Option Write → Except EvalError (List ο) × Arena ο → Prop where
  | lands {write : Write} {s : Scope ο} (live : a.scope? write.place.scope = some s) :
      Writes a (some write) (.ok (if s.kind = .object then s.observers else []),
        a.written write.place.scope s write.place.name write.value)
  | fails {e : EvalError} : Writes a none (.error e, a)

theorem writes_define (a : Arena ο) (scope : ScopeId) (name : String) (value : Value) :
    Writes a (landing? a scope name value) ((Arena.define scope name value).on a) := by
  rw [on_define, landing?]
  cases live : a.scope? scope with
  | none => exact .fails
  | some s => exact .lands live

theorem writes_assign (a : Arena ο) (scope : ScopeId) (name : String) (value : Value) :
    Writes a ((assign scope name value).write? a) ((Arena.assign scope name value).on a) := by
  rw [on_assign, write?]
  cases a.resolve? scope name with
  | some owner => exact writes_define a owner name value
  | none =>
    cases a.policy with
    | strict => exact .fails
    | defineLocal => exact writes_define a scope name value

/-- An operation that writes does what a write does. -/
theorem writes_of_write? {write : Write} (writes : op.write? a = some write) :
    Writes a (some write) (op.perform.on a) := by
  rw [← writes]
  cases op with
  | define scope name value => exact writes_define a scope name value
  | assign scope name value => exact writes_assign a scope name value
  | _ => cases writes

/-- A write is what makes a definition or an assignment succeed. -/
theorem isSome_write?_iff : (op.write? a).isSome = true ↔
    (∃ scope name value, op = .define scope name value ∨ op = .assign scope name value) ∧
      ∃ observers, (op.perform.on a).1 = .ok observers := by
  have succeeds : ∀ {write? outcome}, Writes a write? outcome →
      (write?.isSome = true ↔ ∃ observers, outcome.1 = .ok observers) := by
    rintro _ _ (_ | _) <;> simp
  cases op with
  | define scope name value =>
    simpa [write?, perform] using succeeds (writes_define a scope name value)
  | assign scope name value =>
    simpa [perform] using succeeds (writes_assign a scope name value)
  | _ => simp [write?]

/-- What is written is stored, and it is all that is. -/
theorem stored?_after {write : Write} (writes : op.write? a = some write) (other : ScopeId)
    (name : String) : (op.after a).stored? other name =
      if write.place = ⟨other, name⟩ then some write.value else a.stored? other name := by
  have landed := writes_of_write? writes
  rw [after]
  generalize op.perform.on a = outcome at landed ⊢
  cases landed with
  | lands live => exact stored?_written live _ _ other name

/-! ### Observers of a scope -/

/-- A write leaves observers as they are. -/
theorem Writes.exists_observers_eq {write? : Option Write}
    {outcome : Except EvalError (List ο) × Arena ο} (h : Writes a write? outcome) {t : Scope ο}
    (there : outcome.2.scope? id = some t) :
    ∃ s, a.scope? id = some s ∧ t.observers = s.observers := by
  cases h with
  | @lands write s live =>
    simp only [scope?_written live] at there
    split at there
    · rename_i same
      cases there
      exact ⟨s, same ▸ live, rfl⟩
    · exact ⟨t, there, rfl⟩
  | fails => exact ⟨t, there, rfl⟩

/-- An observer is attached after those that an object has, and to no other scope. -/
theorem exists_observers_eq_of_observe {scope : ScopeId} {observer : ο} {t : Scope ο}
    (there : ((Arena.observe scope observer).on a).2.scope? id = some t) :
    ∃ s, a.scope? id = some s ∧
      t.observers = s.observers ++ ((observe scope observer).attaches? id a).toList := by
  simp only [attaches?]
  rw [on_observe] at there ⊢
  cases live : a.scope? scope with
  | none =>
    rw [live] at there
    exact ⟨t, there, by simp [Except.toOption]⟩
  | some s =>
    simp only [live] at there ⊢
    by_cases object : s.kind = .object
    · simp only [object, if_true] at there ⊢
      rw [scope?_put _ _ _ _ ((isLive_iff _ _).2 ⟨s, live⟩)] at there
      by_cases same : scope = id
      · subst same
        rw [if_pos rfl] at there
        cases there
        exact ⟨s, live, by simp [Except.toOption]⟩
      · rw [if_neg (Ne.symm same)] at there
        exact ⟨t, there, by simp [same]⟩
    · simp only [object, if_false] at there ⊢
      exact ⟨t, there, by simp [Except.toOption]⟩

theorem scope?_of_reclaim {held : List Value} {t : Scope ο}
    (there : (a.reclaim held).2.scope? id = some t) : a.scope? id = some t := by
  obtain same | ⟨-, gone, -⟩ := scope?_reclaim held a id
  · rw [← same, there]
  · rw [gone] at there
    cases there

/-- What makes one scope, or else does nothing, leaves the others as they are. -/
theorem scope?_of_made (wf : a.WellFormed) {t : Scope ο}
    (there : (op.after a).scope? id = some t) (old : op.answer? a ≠ some id)
    (otherwise : op.answer? a = none → op.after a = a) : a.scope? id = some t := by
  cases answered : op.answer? a with
  | some made =>
    have different : id ≠ made := fun same => old (by rw [answered, same])
    obtain ⟨-, -, others⟩ := answer?_fresh wf answered
    rw [← others id different ((isLive_iff _ _).2 ⟨t, there⟩), there]
  | none => rw [← otherwise answered, there]

/-- A scope that is not new has the observers that it had, and the one that is attached to it. -/
theorem observers_after (wf : a.WellFormed) {t : Scope ο}
    (there : (op.after a).scope? id = some t) (old : op.answer? a ≠ some id) :
    ∃ s, a.scope? id = some s ∧ t.observers = s.observers ++ (op.attaches? id a).toList := by
  have kept : a.scope? id = some t → ∃ s, a.scope? id = some s ∧ t.observers = s.observers ++ [] :=
    fun here => ⟨t, here, (List.append_nil _).symm⟩
  cases op with
  | define scope name value =>
    simpa only [attaches?, Option.toList_none, List.append_nil] using
      (writes_define a scope name value).exists_observers_eq there
  | assign scope name value =>
    simpa only [attaches?, Option.toList_none, List.append_nil] using
      (writes_assign a scope name value).exists_observers_eq there
  | observe scope observer =>
    simp only [after, perform, snd_on_forget] at there
    exact exists_observers_eq_of_observe there
  | pushFunction parent =>
    refine kept (scope?_of_made wf there old fun unanswered => ?_)
    simp only [after, perform, snd_on_forget, answer?, on_pushFunction] at unanswered ⊢
    cases live : a.scope? parent with
    | none => rfl
    | some p =>
      rw [live] at unanswered
      cases unanswered
  | popFunction scope =>
    refine kept ?_
    simp only [after, perform, snd_on_forget, on_popFunction] at there
    split at there
    · split at there
      · rw [scope?_release] at there
        split at there
        · cases there
        · exact there
      · exact there
    · exact there
  | newObject held parent =>
    refine kept (scope?_of_made wf there old fun unanswered => ?_)
    simp only [after, perform, snd_on_forget, answer?, on_newObject] at unanswered ⊢
    cases stale : parent.filter fun p => !a.isLive p with
    | some p => rfl
    | none =>
      rw [stale] at unanswered
      cases unanswered
  | reclaim held => exact kept (scope?_of_reclaim there)
  | beginArgument index =>
    exact kept ((a.scope?_beginArgument index id).symm.trans there)
  | _ => exact kept there

/-- A new scope has no observers. -/
theorem observers_of_answer? (wf : a.WellFormed) {t : Scope ο}
    (there : (op.after a).scope? id = some t) (answered : op.answer? a = some id) :
    t.observers = [] := by
  cases op with
  | pushFunction parent =>
    simp only [answer?, after, perform, snd_on_forget, on_pushFunction] at answered there
    cases live : a.scope? parent with
    | none =>
      rw [live] at answered
      cases answered
    | some p =>
      rw [live] at answered there
      cases answered
      simp only [wf.scope?_allocate, if_true] at there
      cases there
      rfl
  | newObject held parent =>
    simp only [answer?, after, perform, snd_on_forget, on_newObject] at answered there
    cases stale : parent.filter fun p => !a.isLive p with
    | some p =>
      rw [stale] at answered
      cases answered
    | none =>
      rw [stale] at answered there
      cases answered
      have reclaimed := (a.turnovers_reclaim held).wellFormed wf
      simp only [reclaimed.scope?_allocate, if_true] at there
      cases there
      rfl
  | _ => cases answered

theorem attached_append_singleton (id : ScopeId) (ops : List (Operation ο)) (op : Operation ο)
    (a : Arena ο) (sofar : List ο) :
    attached id (ops ++ [op]) a sofar =
      if op.answer? (afterAll ops a) = some id then []
      else attached id ops a sofar ++ (op.attaches? id (afterAll ops a)).toList := by
  induction ops generalizing a sofar with
  | nil => rfl
  | cons first ops ih => exact ih (first.after a) _

/-- By induction on the operations from the last one: a scope's observers are those that have been
attached to it since it was made. -/
theorem observers_afterAll (ops : List (Operation ο)) {start : Arena ο} (wf : start.WellFormed)
    (bare : ∀ id s, start.scope? id = some s → s.observers = []) {id : ScopeId} {t : Scope ο}
    (there : (afterAll ops start).scope? id = some t) : t.observers = attached id ops start [] := by
  induction ops using List.reverseRecOn generalizing t with
  | nil => exact bare id t there
  | append_singleton ops op ih =>
    have before := wellFormed_afterAll ops wf
    rw [afterAll_append] at there
    rw [attached_append_singleton]
    split
    · rename_i answered
      exact observers_of_answer? before there answered
    · rename_i old
      obtain ⟨s, here, same⟩ := observers_after before there old
      rw [same, ih here]

theorem observers_ofGlobals {policy : AssignmentPolicy} {bindings : List (String × Value)}
    {s : Scope ο} (here : (ofGlobals policy bindings).scope? id = some s) : s.observers = [] := by
  rw [scope?_eq_some_iff] at here
  have mem := Array.mem_of_getElem? here
  simp only [ofGlobals, List.mem_toArray, List.mem_singleton, Slot.mk.injEq,
    Option.some.injEq] at mem
  rw [mem.2]

/-! ### Calls of observers -/

/-- A write concerns the observers of the object that is written to. -/
theorem notices_of_write {write : Write} (writes : op.write? a = some write) {s : Scope ο}
    (live : a.scope? write.place.scope = some s) :
    op.notices a =
      if s.kind = .object then s.observers.map fun observer => ⟨observer, op.after a⟩ else [] := by
  have landed := writes_of_write? writes
  have concerned : (op.perform.on a).1.toOption.getD [] =
      if s.kind = .object then s.observers else [] := by
    generalize op.perform.on a = outcome at landed ⊢
    cases landed with
    | lands here =>
      rw [live] at here
      cases here
      rfl
  rw [notices, concerned]
  split <;> rfl

theorem concerned_on_forget {α : Type} (action : ArenaM ο α) (a : Arena ο) :
    ((do let _ ← action; return [] : ArenaM ο (List ο)).on a).1.toOption.getD [] = [] := by
  rw [ArenaM.on_bind]
  split <;> rfl

/-- What writes nothing calls nobody. -/
theorem notices_of_no_write (writes : op.write? a = none) : op.notices a = [] := by
  have fails : ∀ {outcome}, Writes a none outcome → outcome.1.toOption.getD [] = [] := by
    rintro _ ⟨⟩
    rfl
  have concerned : (op.perform.on a).1.toOption.getD [] = [] := by
    cases op with
    | define scope name value => exact fails (writes ▸ writes_define a scope name value)
    | assign scope name value => exact fails (writes ▸ writes_assign a scope name value)
    | observe scope observer => exact concerned_on_forget _ a
    | pushFunction parent => exact concerned_on_forget _ a
    | popFunction scope => exact concerned_on_forget _ a
    | newObject held parent => exact concerned_on_forget _ a
    | _ => rfl
  rw [notices, concerned, List.map_nil]

theorem allNotices_append (ops more : List (Operation ο)) (a : Arena ο) :
    allNotices (ops ++ more) a = allNotices ops a ++ allNotices more (afterAll ops a) := by
  induction ops generalizing a with
  | nil => rfl
  | cons op ops ih => rw [List.cons_append, allNotices, allNotices, ih, List.append_assoc]; rfl

/-- By induction on the operations: the observers change the host's state alone, one call after the
other. -/
theorem carriedOut_eq {σ : Type} (held : List Value) (ops : List (Operation (σ → σ)))
    (w : World σ) :
    carriedOut held ops w =
      { w with
        arena := afterAll ops w.arena
        host := { w.host with
          state := (allNotices ops w.arena).foldl (fun s n => n.observer s) w.host.state } } := by
  induction ops generalizing w with
  | nil => rfl
  | cons op ops ih =>
    have step : ((EvalM.notifying op.perform).on held w).2 =
        { w with
          arena := op.after w.arena
          host := { w.host with
            state := (op.notices w.arena).foldl (fun s n => n.observer s) w.host.state } } := by
      rw [EvalM.on_notifying, notices, List.foldl_map, after]
      generalize op.perform.on w.arena = outcome
      obtain ⟨_ | observers, b⟩ := outcome <;> rfl
    rw [carriedOut, step, ih, allNotices, List.foldl_append]
    rfl

/-- The calls of observers are, one operation after the other, those that it leads to, and an
operation leads to calls if it writes to an object: to one call of each observer that has been
attached to the object since it was made, in that order, when the value is stored. An object that is
made has no observers, although others may have had its slot. What writes to another scope calls
nobody, nor does what writes nothing: an operation that fails, or one that is no write. The calls
change the host's state and nothing else in the world. -/
theorem observers_called_once_per_write {σ : Type} (policy : AssignmentPolicy)
    (bindings : List (String × Value)) (ops : List (Operation (σ → σ))) :
    let start : Arena (σ → σ) := ofGlobals policy bindings
    (∀ (w : World σ) held, w.arena = start →
      carriedOut held ops w =
        { w with
          arena := afterAll ops start
          host := { w.host with
            state := (allNotices ops start).foldl (fun s n => n.observer s) w.host.state } }) ∧
    ∀ before op later, ops = before ++ op :: later →
      let a := afterAll before start
      allNotices ops start =
        allNotices before start ++ op.notices a ++ allNotices later (op.after a) ∧
      (∀ place value, op.Lands a place value →
        op.notices a =
          (if (a.scope? place.scope).any (·.kind = .object) then
            (attached place.scope before start []).map fun observer => ⟨observer, op.after a⟩
          else []) ∧
        ∀ id name, (op.after a).stored? id name =
          if place = ⟨id, name⟩ then some value else a.stored? id name) ∧
      ((∀ place value, ¬ op.Lands a place value) → op.notices a = []) ∧
      ((∃ place value, op.Lands a place value) ↔
        (∃ scope name value, op = .define scope name value ∨ op = .assign scope name value) ∧
          ∃ observers, (op.perform.on a).1 = .ok observers) ∧
      ∀ id, op.answer? a = some id → attached id (before ++ [op]) start [] = [] := by
  intro start
  refine ⟨fun w held same => by rw [← same, carriedOut_eq], ?_⟩
  rintro before op later rfl a
  have wf : a.WellFormed := wellFormed_afterAll before (wellFormed_ofGlobals policy bindings)
  refine ⟨?_, fun place value lands => ?_, fun nowhere => ?_, ?_, fun id answered => ?_⟩
  · rw [allNotices_append, allNotices, List.append_assoc]
  · obtain ⟨created, writes⟩ := (lands_iff wf).1 lands
    refine ⟨?_, fun id name => stored?_after writes id name⟩
    have effect := op.effect_after a
    rw [writes] at effect
    obtain ⟨s, live, -⟩ := effect
    have observers : s.observers = attached place.scope before start [] :=
      observers_afterAll before (wellFormed_ofGlobals policy bindings)
        (fun id s => observers_ofGlobals) live
    rw [notices_of_write writes live, live, observers]
    simp only [Option.any_some, decide_eq_true_eq]
  · refine notices_of_no_write (Option.eq_none_iff_forall_not_mem.2 fun write writes => ?_)
    exact nowhere write.place write.value ((lands_iff wf).2 ⟨write.created, writes⟩)
  · rw [← isSome_write?_iff, Option.isSome_iff_exists]
    constructor
    · rintro ⟨place, value, lands⟩
      obtain ⟨created, writes⟩ := (lands_iff wf).1 lands
      exact ⟨_, writes⟩
    · rintro ⟨write, writes⟩
      exact ⟨write.place, write.value, (lands_iff wf).2 ⟨write.created, writes⟩⟩
  · rw [attached_append_singleton, if_pos answered]

/-- An observer that enters a number in a log. -/
def entering (n : Nat) (log : List Nat) : List Nat :=
  log ++ [n]

/-- An object with two observers is written to, and so is an activation inside it, and the object is
written to again from there. Then both are gone, and another object is made in its slot and written
to. -/
def watchedSlot : List (Operation (List Nat → List Nat)) :=
  [.newObject [] none, .observe ⟨1, 0⟩ (entering 1), .define ⟨1, 0⟩ "x" (.bool true),
    .observe ⟨1, 0⟩ (entering 2), .pushFunction ⟨1, 0⟩, .define ⟨2, 0⟩ "y" (.bool true),
    .assign ⟨2, 0⟩ "x" (.bool false), .popFunction ⟨2, 0⟩, .newObject [] none,
    .define ⟨1, 1⟩ "x" (.bool true)]

/-- Each observer is called for every write to the object since it was attached, the one from inside
included, and for none to the object that comes after it. -/
theorem observers_called_once_per_write_reused :
    let start : Arena (List Nat → List Nat) := ofGlobals .strict []
    let w : World (List Nat) := { arena := start, random := .linear 0, host := { state := [] } }
    let inside : Operation (List Nat → List Nat) := .assign ⟨2, 0⟩ "x" (.bool false)
    let anew : Operation (List Nat → List Nat) := .define ⟨1, 1⟩ "x" (.bool true)
    (carriedOut [] watchedSlot w).host.state = [1, 1, 2] ∧
      (inside.notices (afterAll (watchedSlot.take 6) start)).map (fun n => n.observer []) =
        [[1], [2]] ∧
      anew.notices (afterAll (watchedSlot.take 9) start) = [] := by
  intro start w inside anew
  obtain ⟨world, calls⟩ := observers_called_once_per_write .strict [] watchedSlot
  refine ⟨?_, ?_, ?_⟩
  · rw [world w [] rfl]
    decide +kernel
  · obtain ⟨-, lands, -⟩ := calls (watchedSlot.take 6) inside (watchedSlot.drop 7) rfl
    have wf : (afterAll (watchedSlot.take 6) start).WellFormed :=
      wellFormed_afterAll _ (wellFormed_ofGlobals .strict [])
    have found : (afterAll (watchedSlot.take 6) start).resolve? ⟨2, 0⟩ "x" = some ⟨1, 0⟩ := by
      decide +kernel
    rw [(lands _ _ (.nearest (wf.resolve?_eq_some_iff.1 found))).1, if_pos (by decide +kernel),
      List.map_map]
    decide +kernel
  · obtain ⟨-, lands, -⟩ := calls (watchedSlot.take 9) anew [] rfl
    rw [(lands _ _ (.define (by decide +kernel))).1, if_pos (by decide +kernel), List.map_eq_nil_iff]
    exact List.length_eq_zero_iff.1 (by decide +kernel)

end Operation
end Fluent

import Fluent.Arena.Life
import Fluent.Arena.Write

/-!
# What the operations of an arena do

Every operation is described by one equation: what it answers and which arena it leaves behind, for
a live handle and for a stale one. Later modules cite these equations and do not look into the
operations again.
-/
namespace Fluent

namespace ArenaM

variable {ο α β : Type}

/-- What an action answers on an arena, and the arena that it leaves behind. -/
def on (action : ArenaM ο α) (a : Arena ο) : Except EvalError α × Arena ο :=
  action.run.run a

theorem on_bind (x : ArenaM ο α) (f : α → ArenaM ο β) (a : Arena ο) :
    (x >>= f).on a = match x.on a with
      | (.ok v, b) => (f v).on b
      | (.error e, b) => (.error e, b) := by
  simp only [on, ExceptT.run_bind, StateT.run_bind]
  generalize StateT.run x.run a = r
  obtain ⟨_ | v, b⟩ := r <;> rfl

@[simp] theorem on_pure (v : α) (a : Arena ο) : (pure v : ArenaM ο α).on a = (.ok v, a) := rfl

@[simp] theorem on_throw (e : EvalError) (a : Arena ο) :
    (throw e : ArenaM ο α).on a = (.error e, a) := rfl

@[simp] theorem on_get (a : Arena ο) : (get : ArenaM ο (Arena ο)).on a = (.ok a, a) := rfl

@[simp] theorem on_set (b a : Arena ο) : (set b : ArenaM ο PUnit).on a = (.ok ⟨⟩, b) := rfl

@[simp] theorem on_modify (f : Arena ο → Arena ο) (a : Arena ο) :
    (modify f : ArenaM ο PUnit).on a = (.ok ⟨⟩, f a) := rfl

@[simp] theorem on_modifyGet (f : Arena ο → α × Arena ο) (a : Arena ο) :
    (modifyGet f : ArenaM ο α).on a = (.ok (f a).1, (f a).2) := rfl

end ArenaM

namespace Arena

open ArenaM

variable {ο : Type}

/-- The arena after a write to a binding of a scope. -/
def written (a : Arena ο) (id : ScopeId) (s : Scope ο) (name : String) (value : Value) :
    Arena ο :=
  { a.put id { s with bindings := s.bindings.insert name value } with
    journal := (a.noteWrite s.created id name a.journal).1 }

/-- A new scope without bindings and observers. -/
def blank (kind : ScopeKind) (parent : Option ScopeId) : Scope ο :=
  { kind := kind, parent := parent }

theorem on_scopeOf (a : Arena ο) (id : ScopeId) :
    (scopeOf id).on a = match a.scope? id with
      | some s => (.ok s, a)
      | none => (.error (.invalidScope id.index), a) := by
  cases h : a.scope? id <;> simp [scopeOf, on_bind, h]

theorem on_journalWrite (a : Arena ο) (id : ScopeId) (name : String) {s : Scope ο}
    (live : a.scope? id = some s) :
    (journalWrite id name).on a =
      (.ok (), { a with journal := (a.noteWrite s.created id name a.journal).1 }) := by
  cases hj : a.journal with
  | nil =>
    simp only [journalWrite, on_bind, on_get, hj, List.isEmpty_nil, if_true, on_pure, noteWrite]
    rw [← hj]
  | cons frame outer => simp [journalWrite, on_bind, hj, on_scopeOf, live]

theorem scope?_written {a : Arena ο} {id : ScopeId} {s : Scope ο} (live : a.scope? id = some s)
    (name : String) (value : Value) (other : ScopeId) :
    (a.written id s name value).scope? other =
      if other = id then some { s with bindings := s.bindings.insert name value }
      else a.scope? other :=
  a.scope?_put id other _ ((a.isLive_iff id).2 ⟨s, live⟩)

theorem stored?_written {a : Arena ο} {id : ScopeId} {s : Scope ο} (live : a.scope? id = some s)
    (name : String) (value : Value) (other : ScopeId) (n : String) :
    (a.written id s name value).stored? other n =
      if (⟨id, name⟩ : Place) = ⟨other, n⟩ then some value else a.stored? other n := by
  by_cases hid : other = id
  · subst hid
    simp [stored?, scope?_written live, live, Table.find?_insert]
  · have hne : ¬ id = other := fun same => hid same.symm
    simp [stored?, scope?_written live, hid, hne]

theorem readUnder_congr {a b : Arena ο} {id : ScopeId} (h : a.scope? id = b.scope? id)
    (journal : List Frame) (name : String) :
    a.readUnder journal id name = b.readUnder journal id name := by
  simp only [readUnder, stored?, h]

/-- A write to one binding does not change how another one is masked. -/
theorem masked?_noteWrite_of_ne (a : Arena ο) (created : Nat) {id : ScopeId} {name : String}
    {place : Place} (h : (⟨id, name⟩ : Place) ≠ place) (journal : List Frame) :
    masked? place (a.noteWrite created id name journal).1 = masked? place journal := by
  induction journal with
  | nil => rfl
  | cons frame outer ih =>
    rw [fst_noteWrite_cons]
    split
    · simp only [masked?, ih]
    · simp only [masked?, ih, Frame.current_note, Frame.find?_touched_note_of_ne _ _ h]
      rfl

theorem readUnder_written_of_ne {a : Arena ο} {id other : ScopeId} {s : Scope ο}
    (live : a.scope? id = some s) {name n : String} (value : Value)
    (h : (⟨id, name⟩ : Place) ≠ ⟨other, n⟩) (journal : List Frame) :
    (a.written id s name value).readUnder (a.noteWrite s.created id name journal).1 other n =
      a.readUnder journal other n := by
  simp only [readUnder, a.masked?_noteWrite_of_ne s.created h, stored?_written live, if_neg h]

/-- A write lands in a live scope and fails, with nothing done, in any other. -/
theorem on_define (a : Arena ο) (id : ScopeId) (name : String) (value : Value) :
    (define id name value).on a = match a.scope? id with
      | some s => (.ok (if s.kind = .object then s.observers else []), a.written id s name value)
      | none => (.error (.invalidScope id.index), a) := by
  cases live : a.scope? id with
  | none => cases hj : a.journal <;> simp [define, journalWrite, store, on_bind, on_scopeOf, live, hj]
  | some s =>
    have noted : scope? { a with journal := (a.noteWrite s.created id name a.journal).1 } id =
        some s := live
    have answer : (concerned id).on (a.written id s name value) =
        (.ok (if s.kind = .object then s.observers else []), a.written id s name value) := by
      simp only [concerned, on_bind, on_scopeOf, scope?_written live, if_true, on_pure]
    simp only [define, on_bind, on_journalWrite a id name live, store, on_scopeOf, noted, on_modify]
    exact answer

theorem on_assign (a : Arena ο) (id : ScopeId) (name : String) (value : Value) :
    (assign id name value).on a = match a.resolve? id name, a.policy with
      | some owner, _ => (define owner name value).on a
      | none, .strict => (.error (.unknownIdentifier name), a)
      | none, .defineLocal => (define id name value).on a := by
  cases found : a.resolve? id name with
  | some owner => simp [assign, on_bind, found]
  | none => cases policy : a.policy <;> simp [assign, on_bind, found, policy]

theorem resolve?_of_scope?_eq_none {a : Arena ο} {id : ScopeId} (h : a.scope? id = none)
    (name : String) : a.resolve? id name = none := by
  rw [resolve?, resolveWithin?, h]

theorem resolve?_of_isSome {a : Arena ο} {id : ScopeId} {s : Scope ο} (live : a.scope? id = some s)
    {name : String} (h : (a.findLocal? id name).isSome = true) : a.resolve? id name = some id := by
  simp only [resolve?, resolveWithin?, live, h, if_true]

/-- A write into the binding that a value was read from lands there, or fails where the scope is
gone. -/
theorem on_assign_of_isSome (a : Arena ο) (id : ScopeId) (name : String) (value : Value)
    (h : (a.findLocal? id name).isSome = true) :
    (∃ s, a.scope? id = some s ∧ (assign id name value).on a =
      (.ok (if s.kind = .object then s.observers else []), a.written id s name value)) ∨
      ∃ e, (assign id name value).on a = (.error e, a) := by
  rw [on_assign]
  cases live : a.scope? id with
  | none =>
    rw [resolve?_of_scope?_eq_none live]
    cases a.policy with
    | strict => exact .inr ⟨_, rfl⟩
    | defineLocal =>
      refine .inr ⟨.invalidScope id.index, ?_⟩
      simp only [on_define, live]
  | some s =>
    rw [resolve?_of_isSome live h]
    refine .inl ⟨s, rfl, ?_⟩
    simp only [on_define, live]

theorem on_observe (a : Arena ο) (id : ScopeId) (observer : ο) :
    (observe id observer).on a = match a.scope? id with
      | some s =>
        if s.kind = .object then
          (.ok (), a.put id { s with observers := s.observers ++ [observer] })
        else (.error (.unsupported (.unobservable s.kind)), a)
      | none => (.error (.invalidScope id.index), a) := by
  cases live : a.scope? id with
  | none => simp [observe, on_bind, on_scopeOf, live]
  | some s => by_cases h : s.kind = .object <;> simp [observe, on_bind, on_scopeOf, live, h]

theorem on_pushFunction (a : Arena ο) (parent : ScopeId) :
    (pushFunction parent).on a = match a.scope? parent with
      | some _ =>
        (.ok (a.allocate (blank .function (some parent))).1,
          (a.allocate (blank .function (some parent))).2)
      | none => (.error (.invalidScope parent.index), a) := by
  cases live : a.scope? parent <;> simp [pushFunction, on_bind, on_scopeOf, live, blank]

theorem on_popFunction (a : Arena ο) (id : ScopeId) :
    (popFunction id).on a = match a.scope? id with
      | some s =>
        if s.kind = .function then (.ok (), a.release id.index)
        else (.error (.invalidScope id.index), a)
      | none => (.error (.invalidScope id.index), a) := by
  cases live : a.scope? id with
  | none => simp [popFunction, on_bind, on_scopeOf, live]
  | some s => by_cases h : s.kind = .function <;> simp [popFunction, on_bind, on_scopeOf, live, h]

/-- A new object is made after the objects without a handle are gone. -/
theorem on_newObject (a : Arena ο) (held : List Value) (parent : Option ScopeId) :
    (newObject held parent).on a = match parent.filter (fun p => !a.isLive p) with
      | none =>
        (.ok ((a.reclaim held).2.allocate (blank .object parent)).1,
          ((a.reclaim held).2.allocate (blank .object parent)).2)
      | some stale => (.error (.invalidScope stale.index), a) := by
  cases parent with
  | none => simp [newObject, blank]
  | some parent =>
    cases live : a.scope? parent with
    | none => simp [newObject, on_bind, on_scopeOf, live, isLive, Option.filter]
    | some s => simp [newObject, on_bind, on_scopeOf, live, isLive, Option.filter, blank]

end Arena

/-- A write that landed. -/
structure Write where
  place : Place
  value : Value
  /-- The time at which the scope that was written to had been made. -/
  created : Nat

/-- What can be done to an arena from outside, by an interpreter or by whoever holds one. Where
objects may be reclaimed, the values that are held outside the arena are given. -/
inductive Operation (ο : Type) where
  | define (scope : ScopeId) (name : String) (value : Value)
  | assign (scope : ScopeId) (name : String) (value : Value)
  | observe (scope : ScopeId) (observer : ο)
  | setPolicy (policy : AssignmentPolicy)
  | pushFunction (parent : ScopeId)
  | popFunction (scope : ScopeId)
  | newObject (held : List Value) (parent : Option ScopeId)
  | reclaim (held : List Value)
  | openArguments
  | beginArgument (index : Nat)
  | closeArguments

namespace Operation

variable {ο : Type}

/-- Carries out the operation. Answers the observers to call. -/
def perform : Operation ο → ArenaM ο (List ο)
  | define scope name value => Arena.define scope name value
  | assign scope name value => Arena.assign scope name value
  | observe scope observer => do
    Arena.observe scope observer
    return []
  | setPolicy policy => do
    modify fun a => { a with policy := policy }
    return []
  | pushFunction parent => do
    let _ ← Arena.pushFunction parent
    return []
  | popFunction scope => do
    Arena.popFunction scope
    return []
  | newObject held parent => do
    let _ ← Arena.newObject held parent
    return []
  | reclaim held => do
    modify fun a => (a.reclaim held).2
    return []
  | openArguments => do
    modify Arena.openArguments
    return []
  | beginArgument index => do
    modify fun a => a.beginArgument index
    return []
  | closeArguments => do
    modify Arena.closeArguments
    return []

/-- The arena that the operation leaves behind, whether it succeeds or not. -/
def after (op : Operation ο) (a : Arena ο) : Arena ο :=
  (op.perform.on a).2

/-- The operation opens or closes an argument list, or begins an argument. -/
def handlesLists : Operation ο → Bool
  | openArguments => true
  | beginArgument _ => true
  | closeArguments => true
  | _ => false

/-- The write of a value to a binding of a scope, which lands if the scope is live. -/
def landing? (a : Arena ο) (scope : ScopeId) (name : String) (value : Value) : Option Write :=
  (a.scope? scope).map fun s => ⟨⟨scope, name⟩, value, s.created⟩

/-- The write that the operation makes, if one lands. -/
def write? (op : Operation ο) (a : Arena ο) : Option Write :=
  match op with
  | define scope name value => landing? a scope name value
  | assign scope name value =>
    match a.resolve? scope name, a.policy with
    | some owner, _ => landing? a owner name value
    | none, .strict => none
    | none, .defineLocal => landing? a scope name value
  | _ => none

end Operation

end Fluent

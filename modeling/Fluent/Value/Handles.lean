import Std.Data.HashMap
import Fluent.Value.Objects

/-!
# The handles that values hold

Artifacts and types are shared at every depth, so a value written out in full can be far larger
than what there is of it. Here values are walked in such a way that the inside of a shared one is
looked into once, and a handle inside it is met once however many values refer to it.

Main statement: `mem_handles`, the objects whose handles are met are those of the values.
-/
namespace Fluent

namespace Value

/-- The function has one value at both arguments. Arguments that are one in memory are not looked
into. -/
def agree {α β : Type} [DecidableEq β] (f : α → β) (a b : α) : Bool :=
  withPtrEq a b (fun _ => decide (f a = f b)) (by rintro rfl; simp)

theorem agree_iff {α β : Type} [DecidableEq β] (f : α → β) (a b : α) :
    agree f a b = true ↔ f a = f b := by
  simp [agree, withPtrEq]

/-- What a shared value is made of. -/
inductive Inside where
  | chain (arguments : List (Argument Value)) (modifiers : List (Call Value))
  | members (entries : List (String × Value))

namespace Inside

/-- The objects to which the inside of a shared value holds a handle. -/
def objects : Inside → List ScopeId
  | chain arguments modifiers => objectsOfArguments arguments ++ objectsOfCalls modifiers
  | members entries => objectsOfEntries entries

/-- Both insides hold handles to the same objects, part by part. -/
def agrees : Inside → Inside → Bool
  | chain arguments modifiers, chain arguments' modifiers' =>
    agree objectsOfArguments arguments arguments' && agree objectsOfCalls modifiers modifiers'
  | members entries, members entries' => agree objectsOfEntries entries entries'
  | _, _ => false

theorem objects_eq_of_agrees {a b : Inside} (h : a.agrees b = true) : a.objects = b.objects := by
  cases a <;> cases b <;> simp_all [agrees, objects, agree_iff]

end Inside

/-- How far values have been walked. -/
structure Tally where
  /-- The handles that have been met, each as often as it was met. -/
  handles : List ScopeId := []
  /-- The insides that have been looked into, by the identities of the shared values. -/
  entered : Std.HashMap Nat Inside := {}

namespace Tally

/-- One more handle has been met. -/
def meet (t : Tally) (scope : ScopeId) : Tally :=
  { t with handles := scope :: t.handles }

/-- The inside of a shared value has been looked into. -/
def enter (t : Tally) (identity : Nat) (inside : Inside) : Tally :=
  { t with entered := t.entered.insert identity inside }

/-- The inside of the shared value has been looked into before. -/
def hasEntered (t : Tally) (identity : Nat) (inside : Inside) : Bool :=
  match t.entered[identity]? with
  | some known => known.agrees inside
  | none => false

/-- Every handle inside what has been looked into has been met. -/
def IsComplete (t : Tally) : Prop :=
  ∀ (identity : Nat) (inside : Inside), t.entered[identity]? = some inside →
    ∀ scope ∈ inside.objects, scope ∈ t.handles

/-- From one tally to the next the handles to these objects have been met, and no others. -/
def Adds (objects : List ScopeId) (before after : Tally) : Prop :=
  after.IsComplete ∧ ∀ scope, scope ∈ after.handles ↔ scope ∈ before.handles ∨ scope ∈ objects

theorem isComplete_empty : ({} : Tally).IsComplete := by
  simp [IsComplete]

theorem Adds.refl {t : Tally} (h : t.IsComplete) : Adds [] t t := by
  simp [Adds, h]

theorem Adds.trans {first second : List ScopeId} {t u v : Tally} (tu : Adds first t u)
    (uv : Adds second u v) : Adds (first ++ second) t v := by
  refine ⟨uv.1, fun scope => ?_⟩
  rw [uv.2, tu.2, List.mem_append, or_assoc]

theorem adds_meet {t : Tally} (h : t.IsComplete) (scope : ScopeId) :
    Adds [scope] t (t.meet scope) := by
  refine ⟨fun identity inside known other inner => ?_, fun other => ?_⟩
  · exact List.mem_cons_of_mem _ (h identity inside known other inner)
  · simp [meet, or_comm]

/-- What has been looked into adds nothing when it is met again. -/
theorem adds_of_hasEntered {t : Tally} (h : t.IsComplete) {identity : Nat} {inside : Inside}
    (entered : t.hasEntered identity inside = true) : Adds inside.objects t t := by
  refine ⟨h, fun scope => ⟨Or.inl, fun met => met.elim id fun inner => ?_⟩⟩
  unfold hasEntered at entered
  split at entered
  · rename_i known found
    exact h identity known found scope (Inside.objects_eq_of_agrees entered ▸ inner)
  · cases entered

theorem adds_enter {t u : Tally} (identity : Nat) (inside : Inside)
    (h : Adds inside.objects t u) : Adds inside.objects t (u.enter identity inside) := by
  refine ⟨fun other known found scope inner => ?_, h.2⟩
  simp only [Tally.enter, Std.HashMap.getElem?_insert] at found
  split at found
  · cases found
    exact (h.2 scope).2 (Or.inr inner)
  · exact h.1 other known found scope inner

end Tally

/-- The value has no parts in which a handle could stand, and is none itself. -/
def isPlain : Value → Bool
  | object _ => false
  | array _ => false
  | artifact ⟨_, .view _⟩ => false
  | type _ => false
  | _ => true

/-- All arguments are plain. -/
def arePlain (arguments : List (Argument Value)) : Bool :=
  arguments.all fun a => a.value.isPlain

theorem objects_of_isPlain {v : Value} (h : v.isPlain = true) : v.objects = [] := by
  cases v with
  | object => cases h
  | array => cases h
  | type => cases h
  | artifact a =>
    obtain ⟨_, content⟩ := a
    cases content with
    | view => cases h
    | foreign => simp [objects]
  | _ => simp [objects]

theorem objectsOfArguments_of_arePlain {arguments : List (Argument Value)}
    (h : arePlain arguments = true) : objectsOfArguments arguments = [] := by
  simp only [arePlain, List.all_eq_true] at h
  simpa using fun a member => objects_of_isPlain (h a member)

theorem objectsOfCalls_of_arePlain {calls : List (Call Value)}
    (h : calls.all (fun c => arePlain c.arguments) = true) : objectsOfCalls calls = [] := by
  simp only [List.all_eq_true] at h
  rw [objectsOfCalls_eq_flatMap, List.flatMap_eq_nil_iff]
  intro c member
  rw [← objectsOfArguments_eq_flatMap]
  exact objectsOfArguments_of_arePlain (h c member)

mutual

/-- Walks a value. A view without handles is not entered, which would only take time. -/
def tally : Value → Tally → Tally
  | object scope, t => t.meet scope
  | array items, t => tallyItems items t
  | artifact ⟨identity, .view ⟨⟨_, arguments⟩, modifiers⟩⟩, t =>
    if arePlain arguments && modifiers.all (fun c => arePlain c.arguments) then t
    else if t.hasEntered identity (.chain arguments modifiers) then t
    else
      (tallyCalls modifiers (tallyArguments arguments t)).enter identity
        (.chain arguments modifiers)
  | type ⟨identity, _, ⟨entries⟩, _⟩, t =>
    if t.hasEntered identity (.members entries) then t
    else (tallyEntries entries t).enter identity (.members entries)
  | _, t => t

def tallyItems : List Value → Tally → Tally
  | [], t => t
  | v :: rest, t => tallyItems rest (v.tally t)

def tallyArguments : List (Argument Value) → Tally → Tally
  | [], t => t
  | ⟨_, v⟩ :: rest, t => tallyArguments rest (v.tally t)

def tallyCalls : List (Call Value) → Tally → Tally
  | [], t => t
  | ⟨_, arguments⟩ :: rest, t => tallyCalls rest (tallyArguments arguments t)

def tallyEntries : List (String × Value) → Tally → Tally
  | [], t => t
  | (_, v) :: rest, t => tallyEntries rest (v.tally t)

end

/-- The handles that the values hold, those inside one shared value once. -/
def handles (values : List Value) : List ScopeId :=
  (tallyItems values {}).handles

/-- How many handles to the object the values hold together. -/
def handleCount (values : List Value) (scope : ScopeId) : Nat :=
  (handles values).count scope

mutual

theorem adds_tally : ∀ (v : Value) {t : Tally}, t.IsComplete → Tally.Adds v.objects t (v.tally t)
  | object scope, _, h => by
    simpa [objects, tally] using Tally.adds_meet h scope
  | array items, _, h => by
    simpa only [objects, tally] using adds_tallyItems items h
  | artifact ⟨identity, .view ⟨⟨_, arguments⟩, modifiers⟩⟩, t, h => by
    rw [tally, objects]
    split
    · rename_i plain
      rw [Bool.and_eq_true] at plain
      rw [objectsOfArguments_of_arePlain plain.1, objectsOfCalls_of_arePlain plain.2]
      exact Tally.Adds.refl h
    split
    · rename_i entered
      exact Tally.adds_of_hasEntered h entered
    · have first := adds_tallyArguments arguments h
      have second := adds_tallyCalls modifiers first.1
      exact Tally.adds_enter identity (.chain arguments modifiers) (first.trans second)
  | type ⟨identity, _, ⟨entries⟩, _⟩, t, h => by
    rw [tally, objects]
    split
    · rename_i entered
      exact Tally.adds_of_hasEntered h entered
    · exact Tally.adds_enter identity (.members entries) (adds_tallyEntries entries h)
  | artifact ⟨_, .foreign _⟩, _, h => by simpa [objects, tally] using Tally.Adds.refl h
  | int _, _, h => by simpa [objects, tally] using Tally.Adds.refl h
  | double _, _, h => by simpa [objects, tally] using Tally.Adds.refl h
  | bool _, _, h => by simpa [objects, tally] using Tally.Adds.refl h
  | string _, _, h => by simpa [objects, tally] using Tally.Adds.refl h
  | path _, _, h => by simpa [objects, tally] using Tally.Adds.refl h
  | function _, _, h => by simpa [objects, tally] using Tally.Adds.refl h

theorem adds_tallyItems : ∀ (items : List Value) {t : Tally}, t.IsComplete →
    Tally.Adds (objectsOfItems items) t (tallyItems items t)
  | [], _, h => Tally.Adds.refl h
  | v :: rest, _, h =>
    have first := adds_tally v h
    first.trans (adds_tallyItems rest first.1)

theorem adds_tallyArguments : ∀ (arguments : List (Argument Value)) {t : Tally}, t.IsComplete →
    Tally.Adds (objectsOfArguments arguments) t (tallyArguments arguments t)
  | [], _, h => Tally.Adds.refl h
  | ⟨_, v⟩ :: rest, _, h =>
    have first := adds_tally v h
    first.trans (adds_tallyArguments rest first.1)

theorem adds_tallyCalls : ∀ (calls : List (Call Value)) {t : Tally}, t.IsComplete →
    Tally.Adds (objectsOfCalls calls) t (tallyCalls calls t)
  | [], _, h => Tally.Adds.refl h
  | ⟨_, arguments⟩ :: rest, _, h =>
    have first := adds_tallyArguments arguments h
    first.trans (adds_tallyCalls rest first.1)

theorem adds_tallyEntries : ∀ (entries : List (String × Value)) {t : Tally}, t.IsComplete →
    Tally.Adds (objectsOfEntries entries) t (tallyEntries entries t)
  | [], _, h => Tally.Adds.refl h
  | (_, v) :: rest, _, h =>
    have first := adds_tally v h
    first.trans (adds_tallyEntries rest first.1)

end

/-- The objects whose handles are met are those to which one of the values holds a handle. -/
theorem mem_handles (values : List Value) (scope : ScopeId) :
    scope ∈ handles values ↔ ∃ v ∈ values, scope ∈ v.objects := by
  have h := (adds_tallyItems values Tally.isComplete_empty).2 scope
  simpa [handles] using h

end Value

end Fluent

import Fluent.EvalError
import Fluent.Settings
import Fluent.Value

/-!
# The scope arena

All scopes of an interpreter live in the slots of one arena and refer to one another by handles. A
handle names a slot and a generation; the generation of a slot grows by one whenever its scope is
released. Generations are counted modulo `2 ^ 32`, so a handle means no later scope of the same slot
until the slot has been released that often.

While an argument list is being resolved it is open, and a frame of the journal records which
bindings were written meanwhile, by which argument, and what they were before. A binding reads as
its stored value to the argument that wrote it last, and as its prior value to the other arguments
of the list.
-/
namespace Fluent

/-- Where a binding stands: a name in a scope. -/
structure Place where
  scope : ScopeId
  name : String
deriving DecidableEq, Repr

/-- A binding that was written while an argument list was open. -/
structure Written where
  /-- What the binding was before the first write. -/
  prior : Option Value
  /-- The argument that wrote it last. -/
  writer : Nat

/-- An open argument list. -/
structure Frame where
  /-- The time at which the list was opened. -/
  opened : Nat
  /-- The argument that is being resolved. -/
  current : Nat := 0
  touched : Table Place Written := {}

/-- A scope: its bindings, the scope around it, and for an object the observers of its bindings. -/
structure Scope (ο : Type) where
  kind : ScopeKind
  parent : Option ScopeId
  bindings : Table String Value := {}
  observers : List ο := []
  /-- The time at which the scope was made. -/
  created : Nat := 0

/-- A place for a scope. -/
structure Slot (ο : Type) where
  generation : UInt32 := 0
  scope : Option (Scope ο)

/-- The scopes of an interpreter. What an observer is, is left open: the arena only says which
observers a write concerns. -/
structure Arena (ο : Type) where
  slots : Array (Slot ο)
  /-- The empty slots, the one emptied last first. -/
  free : List Nat := []
  policy : AssignmentPolicy
  /-- How many scopes have been made after the global one. -/
  clock : Nat := 0
  /-- The open argument lists, the innermost first. -/
  journal : List Frame := []

/-- An action on an arena. An action that fails leaves a state behind as well. -/
abbrev ArenaM (ο : Type) := ExceptT EvalError (StateM (Arena ο))

namespace Arena

variable {ο : Type}

/-- The handle to the global scope. -/
def global : ScopeId := ⟨0, 0⟩

/-- The arena whose only scope is the global one, with these bindings, of which a later one
replaces an earlier one. -/
def ofGlobals (policy : AssignmentPolicy) (bindings : List (String × Value)) : Arena ο where
  slots := #[{ scope := some { kind := .global, parent := none, bindings := .ofList bindings } }]
  policy := policy

/-- The scope of a handle, if the handle is live. -/
def scope? (a : Arena ο) (id : ScopeId) : Option (Scope ο) :=
  match a.slots[id.index]? with
  | some slot => if slot.generation = id.generation then slot.scope else none
  | none => none

/-- The handle's scope has not been released. -/
def isLive (a : Arena ο) (id : ScopeId) : Bool :=
  (a.scope? id).isSome

def liveCount (a : Arena ο) : Nat :=
  a.slots.countP fun slot => slot.scope.isSome

/-- The value bound in a scope, whatever argument lists are open. -/
def stored? (a : Arena ο) (id : ScopeId) (name : String) : Option Value :=
  (a.scope? id).bind fun s => s.bindings.find? name

/-- What open argument lists, the innermost first, let a binding read as in place of its stored
value. The first list during which the binding was written decides: nothing if its current
argument wrote it last, else the prior value. -/
def masked? (place : Place) : List Frame → Option (Option Value)
  | [] => none
  | frame :: outer =>
    match frame.touched.find? place with
    | some written => if written.writer = frame.current then none else some written.prior
    | none => masked? place outer

/-- What a binding reads as under these open argument lists. -/
def readUnder (a : Arena ο) (journal : List Frame) (id : ScopeId) (name : String) : Option Value :=
  (masked? ⟨id, name⟩ journal).getD (a.stored? id name)

/-- What a name reads as in a scope, not looking outward. -/
def findLocal? (a : Arena ο) (id : ScopeId) (name : String) : Option Value :=
  a.readUnder a.journal id name

/-- The nearest scope that binds the name, from the given one outward, if the way there is not
longer than the bound. -/
def resolveWithin? (a : Arena ο) (name : String) : Nat → ScopeId → Option ScopeId
  | 0, _ => none
  | bound + 1, id =>
    match a.scope? id with
    | none => none
    | some s =>
      if (a.findLocal? id name).isSome then some id
      else s.parent.bind (a.resolveWithin? name bound)

/-- The nearest scope that binds the name, from the given one outward. As long as no slot has been
released `2 ^ 32` times a scope is older than those inside it, so the way outward passes no scope
twice, and passes at most the global scope and every scope made since. Once generations have come
round a scope may lie inside itself: a search without a bound would then go on for ever, and this
one finds nothing. -/
def resolve? (a : Arena ο) (id : ScopeId) (name : String) : Option ScopeId :=
  a.resolveWithin? name (a.clock + 1) id

/-- What a name reads as from a scope outward. -/
def find? (a : Arena ο) (id : ScopeId) (name : String) : Option Value :=
  (a.resolve? id name).bind fun owner => a.findLocal? owner name

/-- The arena with another scope in the slot of a handle. -/
def put (a : Arena ο) (id : ScopeId) (s : Scope ο) : Arena ο :=
  { a with slots := a.slots.modify id.index fun slot => { slot with scope := some s } }

/-- The scope of a handle, which must be live. -/
def scopeOf (id : ScopeId) : ArenaM ο (Scope ο) := do
  match (← get).scope? id with
  | some s => return s
  | none => throw (.invalidScope id.index)

def openArguments (a : Arena ο) : Arena ο :=
  { a with journal := { opened := a.clock } :: a.journal }

/-- Says which argument of the innermost open list is being resolved from now on. -/
def beginArgument (a : Arena ο) (index : Nat) : Arena ο :=
  match a.journal with
  | [] => a
  | frame :: outer => { a with journal := { frame with current := index } :: outer }

/-- Closes the innermost open argument list. From then on its writes read as stored. -/
def closeArguments (a : Arena ο) : Arena ο :=
  { a with journal := a.journal.tail }

theorem isLive_iff (a : Arena ο) (id : ScopeId) :
    a.isLive id = true ↔ ∃ s, a.scope? id = some s := by
  rw [isLive, Option.isSome_iff_exists]

/-- A live handle has the generation of its slot, and the slot holds its scope. -/
theorem scope?_eq_some_iff (a : Arena ο) (id : ScopeId) (s : Scope ο) :
    a.scope? id = some s ↔ a.slots[id.index]? = some ⟨id.generation, some s⟩ := by
  rw [scope?]
  cases found : a.slots[id.index]? with
  | none => simp
  | some slot =>
    obtain ⟨generation, scope⟩ := slot
    by_cases same : generation = id.generation
    · simp [same]
    · simp [same]

theorem scope?_congr {a b : Arena ο} {id : ScopeId}
    (h : a.slots[id.index]? = b.slots[id.index]?) : a.scope? id = b.scope? id := by
  simp only [scope?, h]

/-- Only the scope of the handle is exchanged. -/
theorem scope?_put (a : Arena ο) (id other : ScopeId) (s : Scope ο) (live : a.isLive id = true) :
    (a.put id s).scope? other = if other = id then some s else a.scope? other := by
  obtain ⟨old, here⟩ := (a.isLive_iff id).1 live
  rw [scope?_eq_some_iff] at here
  by_cases place : id.index = other.index
  · by_cases generation : id.generation = other.generation
    · have same : other = id := by cases id; cases other; simp_all
      simp [scope?, put, Array.getElem?_modify, same, here]
    · have differ : other ≠ id := by rintro rfl; exact generation rfl
      simp [scope?, put, Array.getElem?_modify, ← place, here, generation, differ]
  · have differ : other ≠ id := by rintro rfl; exact place rfl
    simp [scope?, put, Array.getElem?_modify, place, differ]

theorem findLocal?_of_journal_eq_nil (a : Arena ο) (h : a.journal = []) (id : ScopeId)
    (name : String) : a.findLocal? id name = a.stored? id name := by
  simp [findLocal?, readUnder, masked?, h]

@[simp] theorem scope?_openArguments (a : Arena ο) (id : ScopeId) :
    a.openArguments.scope? id = a.scope? id := rfl

@[simp] theorem scope?_beginArgument (a : Arena ο) (index : Nat) (id : ScopeId) :
    (a.beginArgument index).scope? id = a.scope? id := by
  cases h : a.journal <;> simp [beginArgument, scope?, h]

@[simp] theorem scope?_closeArguments (a : Arena ο) (id : ScopeId) :
    a.closeArguments.scope? id = a.scope? id := rfl

@[simp] theorem closeArguments_openArguments (a : Arena ο) :
    a.openArguments.closeArguments = a := rfl

@[simp] theorem findLocal?_openArguments (a : Arena ο) (id : ScopeId) (name : String) :
    a.openArguments.findLocal? id name = a.findLocal? id name := by
  simp only [findLocal?, readUnder, stored?, scope?_openArguments]
  rfl

end Arena

end Fluent

import Fluent.Arena.Support

/-!
# The life of scopes

The scope of a function's activation is released when the activation ends. The scope of an object
is reclaimed once no handle to it is held: not by those who run the evaluation, not by a binding
of a scope, and not by a prior value in the journal. Parents are not held by their children.
-/
namespace Fluent.Arena

variable {ο : Type}

/-- The arena with one more scope, in the slot emptied last or else in a new one. -/
def allocate (a : Arena ο) (s : Scope ο) : ScopeId × Arena ο :=
  let clock := a.clock + 1
  let s := { s with created := clock }
  match a.free with
  | index :: free =>
    let generation := (a.slots[index]?.map (·.generation)).getD 0
    (⟨index, generation⟩,
      { a with
        slots := a.slots.modify index fun slot => { slot with scope := some s }
        free := free
        clock := clock })
  | [] =>
    (⟨a.slots.size, 0⟩, { a with slots := a.slots.push { scope := some s }, clock := clock })

/-- The arena without the scope of a slot, whose handles are stale from then on. -/
def release (a : Arena ο) (index : Nat) : Arena ο :=
  { a with
    slots := a.slots.modify index fun slot => { generation := slot.generation + 1, scope := none }
    free := index :: a.free }

/-- A new scope leaves the scopes of other slots alone. -/
theorem scope?_allocate_of_index_ne (a : Arena ο) (s : Scope ο) (id : ScopeId)
    (h : id.index ≠ (a.allocate s).1.index) : (a.allocate s).2.scope? id = a.scope? id := by
  apply scope?_congr
  cases free : a.free with
  | cons index rest =>
    simp only [allocate, free] at h ⊢
    simp [Array.getElem?_modify, Ne.symm h]
  | nil =>
    simp only [allocate, free] at h ⊢
    rw [Array.getElem?_push, if_neg h]

/-- No handle to a released slot is live, and the other slots stay as they are. -/
theorem scope?_release (a : Arena ο) (index : Nat) (id : ScopeId) :
    (a.release index).scope? id = if id.index = index then none else a.scope? id := by
  by_cases h : index = id.index
  · subst h
    simp only [scope?, release, Array.getElem?_modify, if_true]
    cases a.slots[id.index]? <;> simp
  · simp [scope?, release, Array.getElem?_modify, h, Ne.symm h]

@[simp] theorem journal_release (a : Arena ο) (index : Nat) :
    (a.release index).journal = a.journal := rfl

def pushFunction (parent : ScopeId) : ArenaM ο ScopeId := do
  let _ ← scopeOf parent
  modifyGet fun a => a.allocate { kind := .function, parent := some parent }

/-- Releases the scope of an activation that has ended. -/
def popFunction (id : ScopeId) : ArenaM ο Unit := do
  let s ← scopeOf id
  if s.kind ≠ .function then throw (.invalidScope id.index)
  modify fun a => a.release id.index

/-- Releases the objects without a handle, then those that only they held, and so on, for at most
so many rounds. Answers how many were released. -/
def reclaimRounds (held : List Value) : Nat → Arena ο → Nat × Arena ο
  | 0, a => (0, a)
  | bound + 1, a =>
    let gone := a.orphans held
    if gone.isEmpty then (0, a)
    else
      let (more, a) := reclaimRounds held bound (gone.foldl release a)
      (gone.length + more, a)

/-- Releases every object to which no handle is held, those included that only such objects held.
The values given are those held outside the arena. Every round but the last releases a scope. -/
def reclaim (a : Arena ο) (held : List Value) : Nat × Arena ο :=
  reclaimRounds held a.liveCount a

/-- Makes the scope of a new object. Objects that nobody holds are reclaimed first. -/
def newObject (held : List Value) (parent : Option ScopeId) : ArenaM ο ScopeId := do
  if let some parent := parent then
    let _ ← scopeOf parent
  modifyGet fun a => (a.reclaim held).2.allocate { kind := .object, parent := parent }

end Fluent.Arena

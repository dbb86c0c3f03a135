import Fluent.Arena

/-!
# Writing bindings

A write is entered in the journal of every open argument list that is older than the scope, then
stored, and then answered by the observers it concerns. It either does all of that or fails and
does nothing.
-/
namespace Fluent

namespace Frame

/-- The list knows that its current argument has written the binding, which read as `prior`
outside the list. The prior value of the first write stays. -/
def note (frame : Frame) (place : Place) (prior : Option Value) : Frame :=
  let prior := match frame.touched.find? place with
    | some written => written.prior
    | none => prior
  { frame with touched := frame.touched.insert place ⟨prior, frame.current⟩ }

@[simp] theorem opened_note (frame : Frame) (place : Place) (prior : Option Value) :
    (frame.note place prior).opened = frame.opened := rfl

@[simp] theorem current_note (frame : Frame) (place : Place) (prior : Option Value) :
    (frame.note place prior).current = frame.current := rfl

theorem find?_touched_note_of_ne (frame : Frame) {place other : Place}
    (prior : Option Value) (h : place ≠ other) :
    (frame.note place prior).touched.find? other = frame.touched.find? other := by
  simp [note, Table.find?_insert_of_ne, h]

/-- The current argument wrote the binding last, and what it was before is what was known or, at
the first write, what it read as. -/
theorem find?_touched_note_self (frame : Frame) (place : Place) (prior : Option Value) :
    (frame.note place prior).touched.find? place =
      some ⟨((frame.touched.find? place).map (·.prior)).getD prior, frame.current⟩ := by
  cases h : frame.touched.find? place <;> simp [note, h]

end Frame

namespace Arena

variable {ο : Type}

/-- The open lists after a write to a binding of a scope made at the given time, and what the
binding read as under them before. A list that was opened before the scope was made does not
isolate it. Each list learns what the binding read as under the lists further out. -/
def noteWrite (a : Arena ο) (created : Nat) (id : ScopeId) (name : String) :
    List Frame → List Frame × Option Value
  | [] => ([], a.stored? id name)
  | frame :: outer =>
    let (noted, prior) := a.noteWrite created id name outer
    let read := match frame.touched.find? ⟨id, name⟩ with
      | some written =>
        if written.writer = frame.current then a.stored? id name else written.prior
      | none => prior
    ((if frame.opened < created then frame else frame.note ⟨id, name⟩ prior) :: noted, read)

/-- Besides the lists after a write, what the binding read as before it is found. -/
theorem snd_noteWrite (a : Arena ο) (created : Nat) (id : ScopeId) (name : String)
    (journal : List Frame) :
    (a.noteWrite created id name journal).2 = a.readUnder journal id name := by
  induction journal with
  | nil => rfl
  | cons frame outer ih =>
    simp only [noteWrite, readUnder, masked?] at ih ⊢
    cases frame.touched.find? ⟨id, name⟩ with
    | none => exact ih
    | some written =>
      by_cases own : written.writer = frame.current
      · simp [own]
      · simp [own]

/-- The innermost list learns what the binding read as under the others, as they were. -/
theorem fst_noteWrite_cons (a : Arena ο) (created : Nat) (id : ScopeId) (name : String)
    (frame : Frame) (outer : List Frame) :
    (a.noteWrite created id name (frame :: outer)).1 =
      (if frame.opened < created then frame
        else frame.note ⟨id, name⟩ (a.readUnder outer id name))
      :: (a.noteWrite created id name outer).1 := by
  rw [← snd_noteWrite a created id name outer]
  rfl

/-- Enters a write in the journal. -/
def journalWrite (id : ScopeId) (name : String) : ArenaM ο Unit := do
  let a ← get
  if a.journal.isEmpty then return
  let s ← scopeOf id
  set { a with journal := (a.noteWrite s.created id name a.journal).1 }

def store (id : ScopeId) (name : String) (value : Value) : ArenaM ο Unit := do
  let s ← scopeOf id
  modify fun a => a.put id { s with bindings := s.bindings.insert name value }

/-- The observers that a write to the scope concerns, in the order in which they were attached. -/
def concerned (id : ScopeId) : ArenaM ο (List ο) := do
  let s ← scopeOf id
  return if s.kind = .object then s.observers else []

/-- Binds a name in a scope, in place of a binding that the scope has for it. Answers the observers
to call. -/
def define (id : ScopeId) (name : String) (value : Value) : ArenaM ο (List ο) := do
  journalWrite id name
  store id name value
  concerned id

/-- Replaces the nearest binding of a name, from a scope outward. Where no scope binds it, the
policy decides. Answers the observers to call. -/
def assign (id : ScopeId) (name : String) (value : Value) : ArenaM ο (List ο) := do
  let a ← get
  match a.resolve? id name with
  | some owner => define owner name value
  | none =>
    match a.policy with
    | .strict => throw (.unknownIdentifier name)
    | .defineLocal => define id name value

/-- Attaches an observer to the scope of an object. -/
def observe (id : ScopeId) (observer : ο) : ArenaM ο Unit := do
  let s ← scopeOf id
  if s.kind ≠ .object then throw (.unsupported (.unobservable s.kind))
  modify fun a => a.put id { s with observers := s.observers ++ [observer] }

end Arena

end Fluent

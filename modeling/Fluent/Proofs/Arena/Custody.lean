import Fluent.Proofs.Arena.Parents

/-!
# The custody of objects

Those who hold values outside an arena may copy, drop and regroup them, and read more of them from
the arena, before and after everything that they do to it. They give the arena no handles but those
they hold, and new ones come with new objects only. When the arena reclaims, it is told all that is
held.

Main statements: `Step.sound` and `Steps.sound`, whatever a handle is held to is there, and is what
the handle was given out for; `Sound.newObject`, nobody has the handle to a new object yet.
-/
namespace Fluent

namespace Table

variable {κ α : Type} [DecidableEq κ]

/-- The values of a table of bindings are among those bound. -/
theorem mem_of_mem_values_ofList {entries : List (κ × α)} {v : α}
    (h : v ∈ (ofList entries).values) : v ∈ entries.map Prod.snd := by
  have grow : ∀ (rest : List (κ × α)) (t : Table κ α),
      v ∈ (rest.foldl (fun t entry => t.insert entry.1 entry.2) t).values →
        v ∈ t.values ∨ v ∈ rest.map Prod.snd := by
    intro rest
    induction rest with
    | nil => exact fun t mem => .inl mem
    | cons entry rest ih =>
      intro t mem
      obtain known | member := ih _ mem
      · obtain rfl | old := eq_or_mem_of_mem_values_insert known
        · exact .inr List.mem_cons_self
        · exact .inl old
      · exact .inr (List.mem_cons_of_mem _ member)
  obtain absurd | member := grow entries {} h
  · cases absurd
  · exact member

end Table

namespace Arena

variable {ο : Type}

@[simp, grind =] theorem heldBy_nil (id : ScopeId) : HeldBy [] id ↔ False := by
  simp [HeldBy]

@[simp, grind =] theorem heldBy_cons (v : Value) (values : List Value) (id : ScopeId) :
    HeldBy (v :: values) id ↔ id ∈ v.objects ∨ HeldBy values id := by
  simp [HeldBy]

@[simp, grind =] theorem heldBy_append (values more : List Value) (id : ScopeId) :
    HeldBy (values ++ more) id ↔ HeldBy values id ∨ HeldBy more id := by
  simp [HeldBy, or_and_right, exists_or]

@[grind =]
theorem mem_objects_array (items : List Value) (id : ScopeId) :
    id ∈ (Value.array items).objects ↔ HeldBy items id := by
  simp only [Value.objects, Value.objectsOfItems_eq_flatMap, List.mem_flatMap, HeldBy]

/-- Every object to which the second values hold a handle, the first hold one to as well. -/
@[grind]
def Covers (given values : List Value) : Prop :=
  ∀ id, HeldBy values id → HeldBy given id

theorem Covers.trans {values others more : List Value} (h : Covers values others)
    (h' : Covers others more) : Covers values more :=
  fun id held => h id (h' id held)

theorem covers_nil (values : List Value) : Covers values [] := by
  grind

theorem Covers.left (values more : List Value) : Covers (values ++ more) values := by
  grind

theorem Covers.right (values more : List Value) : Covers (values ++ more) more := by
  grind

theorem covers_of_subset {given values : List Value} (h : ∀ v ∈ values, v ∈ given) :
    Covers given values :=
  fun _ held => held.mono h

theorem covers_findLocal? {a : Arena ο} {id : ScopeId} {name : String} {v : Value}
    (h : a.findLocal? id name = some v) : Covers a.heldValues [v] := by
  have held := mem_heldValues_of_readUnder (fun _ hf => hf) h
  exact covers_of_subset fun u hu => List.mem_singleton.1 hu ▸ held

theorem covers_openArguments (a : Arena ο) : Covers a.heldValues a.openArguments.heldValues := by
  refine covers_of_subset fun v held => mem_heldValues.2 ((mem_heldValues.1 held).imp_right ?_)
  rintro ⟨frame, mem, written, touched, prior⟩
  obtain rfl | mem := List.mem_cons.1 mem
  · cases touched
  · exact ⟨frame, mem, written, touched, prior⟩

theorem covers_beginArgument (a : Arena ο) (index : Nat) :
    Covers a.heldValues (a.beginArgument index).heldValues := by
  refine covers_of_subset fun v held => mem_heldValues.2 ?_
  obtain ⟨id, s, live, bound⟩ | ⟨frame, mem, written, touched, prior⟩ := mem_heldValues.1 held
  · rw [scope?_beginArgument] at live
    exact .inl ⟨id, s, live, bound⟩
  · obtain ⟨frame', mem', same⟩ := exists_of_mem_beginArgument mem
    exact .inr ⟨frame', mem', written, by rwa [← same.2], prior⟩

theorem covers_closeArguments (a : Arena ο) :
    Covers a.heldValues a.closeArguments.heldValues := by
  refine covers_of_subset fun v held => mem_heldValues.2 ((mem_heldValues.1 held).imp_right ?_)
  rintro ⟨frame, mem, touched⟩
  exact ⟨frame, List.mem_of_mem_tail mem, touched⟩

end Arena

namespace Operation

variable {ο : Type}

open Arena

/-- The operation writes no handle but to what is held, and reclaiming counts what is held. That an
object is made is told apart, since the handle to it is held from then on. -/
def Draws (held : List Value) : Operation ο → Prop
  | define _ _ value => Covers held [value]
  | assign _ _ value => Covers held [value]
  | newObject _ _ => False
  | reclaim given => given = held
  | _ => True

theorem Draws.covers_write {held : List Value} {op : Operation ο} (draws : op.Draws held)
    {a : Arena ο} {w : Write} (lands : op.write? a = some w) : Covers held [w.value] := by
  have landed : ∀ {scope : ScopeId} {name : String} {value : Value},
      landing? a scope name value = some w → w.value = value := by
    intro scope name value h
    obtain ⟨s, -, rfl⟩ := Option.map_eq_some_iff.1 h
    rfl
  cases op with
  | define scope name value =>
    rw [landed lands]
    exact draws
  | assign scope name value =>
    simp only [write?] at lands
    split at lands
    · rw [landed lands]
      exact draws
    · cases lands
    · rw [landed lands]
      exact draws
  | _ => cases lands

/-- After an operation the arena holds nothing new but what it was given. -/
theorem Draws.covers {held : List Value} {op : Operation ο} (draws : op.Draws held)
    {a : Arena ο} (wf : a.WellFormed) :
    Covers (held ++ a.heldValues) (held ++ (op.after a).heldValues) := by
  have grow : ∀ values, Covers a.heldValues values →
      Covers (held ++ a.heldValues) (held ++ values) := by
    intro values covered id h
    simp only [heldBy_append] at h ⊢
    exact h.imp_right (covered id)
  have effect := op.effect_after a
  cases lands : op.write? a with
  | some w =>
    rw [lands] at effect
    obtain ⟨s, live, -, after⟩ := effect
    rw [after]
    intro id h
    simp only [heldBy_append] at h ⊢
    obtain h | ⟨v, mem, handle⟩ := h
    · exact .inl h
    · obtain rfl | old := mem_heldValues_written live mem
      · exact .inl (draws.covers_write lands id ⟨w.value, List.mem_singleton_self _, handle⟩)
      · exact .inr ⟨v, old, handle⟩
  | none =>
    rw [lands] at effect
    cases op with
    | openArguments => exact grow _ (covers_openArguments a)
    | beginArgument index => exact grow _ (covers_beginArgument a index)
    | closeArguments => exact grow _ (covers_closeArguments a)
    | _ =>
      have turnovers := effect rfl
      exact grow _ (covers_of_subset fun v mem => turnovers.mem_heldValues wf mem)

/-- What is held afterwards has not been finished. -/
theorem Draws.not_finishes {held : List Value} {op : Operation ο} (draws : op.Draws held)
    {a : Arena ο} {id : ScopeId} {s : Scope ο} (live : a.scope? id = some s)
    (object : s.kind = .object) (keeps : HeldBy (held ++ (op.after a).heldValues) id) :
    ¬ Finishes a id op := by
  intro finishes
  cases finishes with
  | popFunction there function =>
    rw [live] at there
    cases there
    rw [object] at function
    cases function
  | reclaim gone =>
    obtain rfl := draws
    exact gone.2.2 keeps
  | newObject _ _ => exact draws

end Operation

/-- An arena and the values that are held outside it. -/
structure Custody (ο : Type) where
  arena : Arena ο
  held : List Value
  /-- When the object was made that a handle was given out for last. -/
  made : ScopeId → Nat

namespace Custody

variable {ο : Type}

open Arena

/-- There is a handle to the object: outside the arena, in a binding of a live scope, or in a value
that an open list keeps because a binding had it before. -/
inductive Extant (c : Custody ο) (id : ScopeId) : Prop where
  | outside {v : Value} (mem : v ∈ c.held) (handle : id ∈ v.objects)
  | bound {scope : ScopeId} {s : Scope ο} {name : String} {v : Value}
      (live : c.arena.scope? scope = some s) (binding : s.bindings.find? name = some v)
      (handle : id ∈ v.objects)
  | prior {frame : Frame} {written : Written} {v : Value} (opened : frame ∈ c.arena.journal)
      (touched : written ∈ frame.touched.values) (was : written.prior = some v)
      (handle : id ∈ v.objects)

theorem Extant.heldBy {c : Custody ο} {id : ScopeId} (h : c.Extant id) :
    HeldBy (c.held ++ c.arena.heldValues) id := by
  cases h with
  | @outside v mem handle => exact ⟨v, List.mem_append_left _ mem, handle⟩
  | @bound scope s name v live binding handle =>
    refine ⟨v, List.mem_append_right _ (mem_heldValues.2 (.inl ⟨scope, s, live, ?_⟩)), handle⟩
    exact Table.mem_values_of_find? binding
  | @prior frame written v opened touched was handle =>
    refine ⟨v, List.mem_append_right _ (mem_heldValues.2 (.inr ?_)), handle⟩
    exact ⟨frame, opened, written, touched, was⟩

/-- What those may do who hold the values. -/
inductive Step (c : Custody ο) : Custody ο → Prop where
  /-- They carry out an operation that makes no object. -/
  | operate (op : Operation ο) (draws : op.Draws c.held) :
      Step c ⟨op.after c.arena, c.held, c.made⟩
  /-- They make an object, and hold the handle to it from then on. -/
  | newObject (parent : Option ScopeId) {id : ScopeId} {b : Arena ο}
      (answered : (Arena.newObject c.held parent).on c.arena = (.ok id, b)) :
      Step c ⟨b, .object id :: c.held, fun other => if other = id then b.clock else c.made other⟩
  /-- They copy, drop and regroup what they hold, and read from the arena. -/
  | keep (held : List Value) (covered : Covers (c.held ++ c.arena.heldValues) held) :
      Step c ⟨c.arena, held, c.made⟩

/-- Steps one after the other. -/
abbrev Steps : Custody ο → Custody ο → Prop :=
  Relation.ReflTransGen Step

/-- Operations that make no object are carried out step by step. -/
theorem steps_afterAll (ops : List (Operation ο)) {c : Custody ο}
    (draws : ∀ op ∈ ops, op.Draws c.held) :
    Steps c ⟨Operation.afterAll ops c.arena, c.held, c.made⟩ := by
  induction ops generalizing c with
  | nil => exact .refl
  | cons op ops ih =>
    have later := ih (c := ⟨op.after c.arena, c.held, c.made⟩) fun next mem =>
      draws next (List.mem_cons_of_mem op mem)
    exact .head (.operate op (draws op List.mem_cons_self)) later

/-- The custody of an arena that has only the global scope, with these bindings. -/
def start (policy : AssignmentPolicy) (bindings : List (String × Value)) : Custody ο :=
  ⟨ofGlobals policy bindings, [], fun _ => 0⟩

/-- Those who hold values came to do so by steps, from an arena whose first bindings had no handle.
-/
def Reached (c : Custody ο) : Prop :=
  ∃ policy bindings, (∀ id, ¬ HeldBy (bindings.map Prod.snd) id) ∧ Steps (start policy bindings) c

/-- Every handle is to an object, and to the one that it was given out for. -/
structure Sound (c : Custody ο) : Prop where
  wellFormed : c.arena.WellFormed
  designates : ∀ id, HeldBy (c.held ++ c.arena.heldValues) id →
    ∃ s, c.arena.scope? id = some s ∧ s.kind = .object ∧ s.created = c.made id

theorem sound_start (policy : AssignmentPolicy) {bindings : List (String × Value)}
    (bare : ∀ id, ¬ HeldBy (bindings.map Prod.snd) id) :
    (start policy bindings : Custody ο).Sound where
  wellFormed := wellFormed_ofGlobals policy bindings
  designates id held := by
    obtain ⟨v, mem, handle⟩ := held
    obtain ⟨scope, s, live, bound⟩ | ⟨frame, mem, -⟩ := mem_heldValues.1 mem
    · rw [scope?_eq_some_iff] at live
      have mem := Array.mem_of_getElem? live
      simp only [start, ofGlobals, List.mem_toArray, List.mem_singleton, Slot.mk.injEq,
        Option.some.injEq] at mem
      rw [mem.2] at bound
      exact absurd ⟨v, Table.mem_of_mem_values_ofList bound, handle⟩ (bare id)
    · cases mem

theorem Sound.operate {c : Custody ο} (h : c.Sound) {op : Operation ο} (draws : op.Draws c.held) :
    Sound ⟨op.after c.arena, c.held, c.made⟩ where
  wellFormed := (op.changes c.arena).wellFormed h.wellFormed
  designates id held := by
    obtain ⟨s, live, object, created⟩ := h.designates id (draws.covers h.wellFormed id held)
    have unfinished := draws.not_finishes live object held
    cases op.fate h.wellFormed id with
    | kept keeps =>
      obtain ⟨t, there, akin⟩ := keeps.1 s live
      exact ⟨t, there, akin.kind.trans object, akin.created.trans created⟩
    | finished finishes _ => exact absurd finishes unfinished
    | made before _ _ =>
      obtain missing | finishes := before
      · rw [live] at missing
        cases missing
      · exact absurd finishes unfinished

theorem Sound.reclaim {c : Custody ο} (h : c.Sound) :
    Sound ⟨(c.arena.reclaim c.held).2, c.held, c.made⟩ := by
  have draws : (Operation.reclaim c.held : Operation ο).Draws c.held := rfl
  exact h.operate draws

/-- The handle to a new object is held by nobody, and is held from then on. The handles that are
held already are to the same objects as before. -/
theorem Sound.allocate {c : Custody ο} (h : c.Sound) (parent : Option ScopeId) {id : ScopeId}
    {b : Arena ο} (made : c.arena.allocate (blank .object parent) = (id, b)) :
    ¬ HeldBy (c.held ++ b.heldValues) id ∧
      Sound ⟨b, .object id :: c.held,
        fun other => if other = id then b.clock else c.made other⟩ := by
  have scopes := h.wellFormed.scope?_allocate (blank .object parent)
  have missing := h.wellFormed.scope?_fst_allocate (blank .object parent)
  have turnover : Turnovers c.arena (c.arena.allocate (blank .object parent)).2 :=
    .single (.make (by simp) parent)
  have clock := c.arena.clock_allocate (blank .object parent)
  rw [made] at scopes missing turnover clock
  have before : ∀ other, HeldBy (c.held ++ b.heldValues) other →
      HeldBy (c.held ++ c.arena.heldValues) other := by
    intro other held
    simp only [heldBy_append] at held ⊢
    exact held.imp_right fun kept =>
      kept.mono fun v mem => turnover.mem_heldValues h.wellFormed mem
  have fresh : ¬ HeldBy (c.held ++ b.heldValues) id := by
    intro held
    obtain ⟨s, live, -⟩ := h.designates id (before id held)
    rw [missing] at live
    cases live
  refine ⟨fresh, turnover.wellFormed h.wellFormed, fun other held => ?_⟩
  have found := scopes other
  dsimp only at found held ⊢
  by_cases new : other = id
  · rw [if_pos new] at found
    exact ⟨_, found, rfl, by rw [if_pos new, clock]⟩
  · rw [if_neg new] at found
    simp only [List.cons_append, heldBy_cons, Value.objects, List.mem_singleton, new,
      false_or] at held
    obtain ⟨s, live, object, created⟩ := h.designates other (before other held)
    exact ⟨s, found.trans live, object, by rw [if_neg new, created]⟩

theorem Sound.newObject {c : Custody ο} (h : c.Sound) {parent : Option ScopeId} {id : ScopeId}
    {b : Arena ο} (answered : (Arena.newObject c.held parent).on c.arena = (.ok id, b)) :
    ¬ HeldBy (c.held ++ b.heldValues) id ∧
      Sound ⟨b, .object id :: c.held,
        fun other => if other = id then b.clock else c.made other⟩ := by
  have made : (c.arena.reclaim c.held).2.allocate (blank .object parent) = (id, b) := by
    rw [on_newObject] at answered
    split at answered
    · cases answered
      rfl
    · cases answered
  exact h.reclaim.allocate parent made

/-- Every step keeps every handle to what it was given out for. -/
theorem Step.sound {c d : Custody ο} (step : Step c d) (h : c.Sound) : d.Sound := by
  cases step with
  | operate op draws => exact h.operate draws
  | newObject parent answered => exact (h.newObject answered).2
  | keep held covered =>
    refine ⟨h.wellFormed, fun id kept => h.designates id ?_⟩
    obtain kept | kept := (heldBy_append held c.arena.heldValues id).1 kept
    · exact covered id kept
    · exact (heldBy_append _ _ id).2 (.inr kept)

theorem Steps.sound {c d : Custody ο} (steps : Steps c d) (h : c.Sound) : d.Sound := by
  induction steps with
  | refl => exact h
  | tail _ step ih => exact step.sound ih

theorem Reached.sound {c : Custody ο} (h : c.Reached) : c.Sound := by
  obtain ⟨policy, bindings, bare, steps⟩ := h
  exact Steps.sound steps (sound_start policy bare)

theorem Reached.steps {c d : Custody ο} (h : c.Reached) (steps : Steps c d) : d.Reached := by
  obtain ⟨policy, bindings, bare, before⟩ := h
  exact ⟨policy, bindings, bare, before.trans steps⟩

end Custody

end Fluent

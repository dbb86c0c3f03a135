import Fluent.Proofs.Arena.Activity
import Fluent.Proofs.Arena.Holding

/-!
# Parents and the scopes inside them

A scope is made inside a live parent, and has that parent as long as it is live. It does not keep
the parent, though: an activation ends when it is told to, and an object goes when nobody holds it,
whatever scopes are inside.

Main statements: `parent_live_or_ended`, how a parent may be gone before a scope inside it;
`parent_not_always_live`, and that it happens.
-/
namespace Fluent

open Arena

namespace Operation

variable {ο : Type}

def afterAll (ops : List (Operation ο)) (a : Arena ο) : Arena ο :=
  ops.foldl (fun a op => op.after a) a

@[simp] theorem afterAll_nil (a : Arena ο) : afterAll [] a = a := rfl

@[simp] theorem afterAll_cons (op : Operation ο) (ops : List (Operation ο)) (a : Arena ο) :
    afterAll (op :: ops) a = afterAll ops (op.after a) := rfl

theorem afterAll_append (ops more : List (Operation ο)) (a : Arena ο) :
    afterAll (ops ++ more) a = afterAll more (afterAll ops a) :=
  List.foldl_append

theorem wellFormed_afterAll (ops : List (Operation ο)) {a : Arena ο} (wf : a.WellFormed) :
    (afterAll ops a).WellFormed := by
  induction ops generalizing a with
  | nil => exact wf
  | cons op ops ih => exact ih ((op.changes a).wellFormed wf)

theorem reachable_afterAll (ops : List (Operation ο)) {a : Arena ο} (h : a.Reachable) :
    (afterAll ops a).Reachable := by
  induction ops generalizing a with
  | nil => exact h
  | cons op ops ih => exact ih (h.after op)

/-- The operation makes the scope inside the parent and answers its handle. -/
inductive Makes (a : Arena ο) (id parent : ScopeId) : Operation ο → Prop where
  | pushFunction {b : Arena ο} (answered : (Arena.pushFunction parent).on a = (.ok id, b)) :
      Makes a id parent (.pushFunction parent)
  | newObject {held : List Value} {b : Arena ο}
      (answered : (Arena.newObject held (some parent)).on a = (.ok id, b)) :
      Makes a id parent (.newObject held (some parent))

/-- The operation ends the activation that the scope belongs to, or it reclaims objects and nobody
holds this one. -/
inductive Finishes (a : Arena ο) (id : ScopeId) : Operation ο → Prop where
  | popFunction {s : Scope ο} (live : a.scope? id = some s) (function : s.kind = .function) :
      Finishes a id (.popFunction id)
  | reclaim {held : List Value} (gone : LetGo a held (a.reclaim held).2 id) :
      Finishes a id (.reclaim held)
  | newObject {held : List Value} {parent : Option ScopeId} {other : ScopeId} {b : Arena ο}
      (answered : (Arena.newObject held parent).on a = (.ok other, b))
      (gone : LetGo a held (a.reclaim held).2 id) : Finishes a id (.newObject held parent)

/-- The handle is to a scope of the same kind, with the same parent and made at the same time, in
both arenas, or to none in either. -/
def Keeps (a b : Arena ο) (id : ScopeId) : Prop :=
  (∀ s, a.scope? id = some s → ∃ t, b.scope? id = some t ∧ s.Akin t) ∧
    ∀ t, b.scope? id = some t → ∃ s, a.scope? id = some s ∧ s.Akin t

theorem Keeps.of_scope?_eq {a b : Arena ο} {id : ScopeId} (h : b.scope? id = a.scope? id) :
    Keeps a b id :=
  ⟨fun s here => ⟨s, h.trans here, .refl s⟩, fun t there => ⟨t, h.symm.trans there, .refl t⟩⟩

theorem keeps_define (a : Arena ο) (scope : ScopeId) (name : String) (value : Value)
    (id : ScopeId) : Keeps a ((Arena.define scope name value).on a).2 id := by
  rw [on_define]
  split
  · rename_i s live
    exact ⟨fun _ here => akin_written live name value here, fun _ there =>
      exists_akin_of_written live there⟩
  · exact .of_scope?_eq rfl

theorem keeps_observe (a : Arena ο) (scope : ScopeId) (observer : ο) (id : ScopeId) :
    Keeps a ((Arena.observe scope observer).on a).2 id := by
  rw [on_observe]
  split
  · rename_i s live
    split
    · have found := a.scope?_put scope id { s with observers := s.observers ++ [observer] }
        ((a.isLive_iff scope).2 ⟨s, live⟩)
      by_cases same : id = scope
      · subst same
        rw [if_pos rfl] at found
        refine ⟨fun t here => ⟨_, found, ?_⟩, fun t there => ⟨s, live, ?_⟩⟩
        · rw [live] at here
          cases here
          exact ⟨rfl, rfl, rfl⟩
        · have equal := found.symm.trans there
          cases equal
          exact ⟨rfl, rfl, rfl⟩
      · rw [if_neg same] at found
        exact .of_scope?_eq found
    · exact .of_scope?_eq rfl
  · exact .of_scope?_eq rfl

/-- What an operation does to the scope of a handle: it keeps it, or finishes it, or makes it. One
that makes an object may do so in the slot of one that it has finished. -/
inductive Fate (a : Arena ο) (op : Operation ο) (id : ScopeId) : Prop where
  | kept (keeps : Keeps a (op.after a) id)
  | finished (finishes : Finishes a id op) (gone : (op.after a).scope? id = none)
  | made (before : a.scope? id = none ∨ Finishes a id op) {t : Scope ο}
      (there : (op.after a).scope? id = some t)
      (inside : ∀ parent, t.parent = some parent → Makes a id parent op ∧ a.isLive parent = true)

theorem fate_reclaim (a : Arena ο) (held : List Value) (id : ScopeId) :
    Fate a (.reclaim held) id := by
  obtain same | gone := scope?_reclaim held a id
  · exact .kept (.of_scope?_eq same)
  · exact .finished (.reclaim gone) gone.2.1

theorem fate_pushFunction {a : Arena ο} (wf : a.WellFormed) (parent id : ScopeId) :
    Fate a (.pushFunction parent) id := by
  have answer := on_pushFunction a parent
  have after : (Operation.pushFunction parent).after a =
      ((Arena.pushFunction parent).on a).2 := by
    simp only [Operation.after, perform, snd_on_forget]
  cases live : a.scope? parent with
  | none =>
    rw [live] at answer
    exact .kept (.of_scope?_eq (by rw [after, answer]))
  | some p =>
    rw [live] at answer
    have found := wf.scope?_allocate (blank .function (some parent)) id
    by_cases new : id = (a.allocate (blank .function (some parent))).1
    · rw [if_pos new] at found
      refine .made (.inl ?_) (by rw [after, answer]; exact found) ?_
      · rw [new]
        exact wf.scope?_fst_allocate _
      · intro q hq
        cases hq
        rw [← new] at answer
        exact ⟨.pushFunction answer, (a.isLive_iff parent).2 ⟨p, live⟩⟩
    · rw [if_neg new] at found
      exact .kept (.of_scope?_eq (by rw [after, answer]; exact found))

theorem fate_popFunction (a : Arena ο) (scope id : ScopeId) : Fate a (.popFunction scope) id := by
  have answer := on_popFunction a scope
  have after : (Operation.popFunction scope).after a = ((Arena.popFunction scope).on a).2 := by
    simp only [Operation.after, perform, snd_on_forget]
  cases live : a.scope? scope with
  | none =>
    rw [live] at answer
    exact .kept (.of_scope?_eq (by rw [after, answer]))
  | some s =>
    rw [live] at answer
    by_cases function : s.kind = .function
    · simp only [function, if_true] at answer
      by_cases same : id = scope
      · subst same
        refine .finished (.popFunction live function) ?_
        rw [after, answer, scope?_release, if_pos rfl]
      · exact .kept (.of_scope?_eq (by rw [after, answer, scope?_release_of_ne live same]))
    · simp only [function, if_false] at answer
      exact .kept (.of_scope?_eq (by rw [after, answer]))

theorem fate_newObject {a : Arena ο} (wf : a.WellFormed) (held : List Value)
    (parent : Option ScopeId) (id : ScopeId) : Fate a (.newObject held parent) id := by
  have answer := on_newObject a held parent
  have after : (Operation.newObject held parent).after a =
      ((Arena.newObject held parent).on a).2 := by
    simp only [Operation.after, perform, snd_on_forget]
  cases stale : parent.filter fun p => !a.isLive p with
  | some p =>
    rw [stale] at answer
    exact .kept (.of_scope?_eq (by rw [after, answer]))
  | none =>
    rw [stale] at answer
    have reclaimed := (a.turnovers_reclaim held).wellFormed wf
    have found := reclaimed.scope?_allocate (blank .object parent) id
    have before := scope?_reclaim held a id
    by_cases new : id = ((a.reclaim held).2.allocate (blank .object parent)).1
    · have missing := reclaimed.scope?_fst_allocate (blank .object parent)
      rw [← new] at missing
      rw [if_pos new] at found
      refine .made ?_ (by rw [after, answer]; exact found) ?_
      · obtain same | gone := before
        · exact .inl (same.symm.trans missing)
        · exact .inr (.newObject answer gone)
      · intro q hq
        obtain rfl : parent = some q := hq
        rw [← new] at answer
        have live : a.isLive q = true := by simpa [Option.filter] using stale
        exact ⟨.newObject answer, live⟩
    · rw [if_neg new] at found
      obtain same | gone := before
      · exact .kept (.of_scope?_eq (by rw [after, answer]; exact found.trans same))
      · exact .finished (.newObject answer gone) (by rw [after, answer]; exact found.trans gone.2.1)

theorem fate {a : Arena ο} (wf : a.WellFormed) (op : Operation ο) (id : ScopeId) :
    Fate a op id := by
  cases op with
  | define scope name value => exact .kept (keeps_define a scope name value id)
  | assign scope name value =>
    refine .kept ?_
    have answer := on_assign a scope name value
    simp only [after, perform, answer]
    split
    · exact keeps_define a _ name value id
    · exact .of_scope?_eq rfl
    · exact keeps_define a scope name value id
  | observe scope observer =>
    refine .kept ?_
    simp only [after, perform, snd_on_forget]
    exact keeps_observe a scope observer id
  | setPolicy policy => exact .kept (.of_scope?_eq rfl)
  | pushFunction parent => exact fate_pushFunction wf parent id
  | popFunction scope => exact fate_popFunction a scope id
  | newObject held parent => exact fate_newObject wf held parent id
  | reclaim held => exact fate_reclaim a held id
  | openArguments => exact .kept (.of_scope?_eq rfl)
  | beginArgument index => exact .kept (.of_scope?_eq (scope?_beginArgument a index id))
  | closeArguments => exact .kept (.of_scope?_eq rfl)

/-- By induction on the operations: a scope stays live until an operation finishes it. -/
theorem akin_or_finished (ops : List (Operation ο)) {a : Arena ο} (wf : a.WellFormed) {id : ScopeId}
    {s : Scope ο} (here : a.scope? id = some s) :
    (∃ t, (afterAll ops a).scope? id = some t ∧ s.Akin t) ∨
      ∃ earlier op later, ops = earlier ++ op :: later ∧ Finishes (afterAll earlier a) id op := by
  induction ops generalizing a s with
  | nil => exact .inl ⟨s, here, .refl s⟩
  | cons op ops ih =>
    have onward : ∀ t, (op.after a).scope? id = some t → s.Akin t →
        (∃ t, (afterAll (op :: ops) a).scope? id = some t ∧ s.Akin t) ∨
          ∃ earlier other later, op :: ops = earlier ++ other :: later ∧
            Finishes (afterAll earlier a) id other := by
      intro t there akin
      obtain ⟨u, last, akin'⟩ | ⟨earlier, other, later, split, finishes⟩ :=
        ih ((op.changes a).wellFormed wf) there
      · exact .inl ⟨u, last, akin.trans akin'⟩
      · exact .inr ⟨op :: earlier, other, later, by rw [split, List.cons_append], finishes⟩
    cases fate wf op id with
    | kept keeps =>
      obtain ⟨t, there, akin⟩ := keeps.1 s here
      exact onward t there akin
    | finished finishes _ => exact .inr ⟨[], op, ops, rfl, finishes⟩
    | made before _ _ =>
      obtain missing | finishes := before
      · rw [here] at missing
        cases missing
      · exact .inr ⟨[], op, ops, rfl, finishes⟩

/-- By induction on the operations, from the last one back: a scope inside a parent was there from
the beginning, or one of them made it, inside the parent and while that was live. -/
theorem akin_or_made (ops : List (Operation ο)) {a : Arena ο} (wf : a.WellFormed) {id : ScopeId}
    {t : Scope ο} (there : (afterAll ops a).scope? id = some t) {parent : ScopeId}
    (hp : t.parent = some parent) :
    (∃ s, a.scope? id = some s ∧ s.Akin t) ∨
      ∃ before op later s, ops = before ++ op :: later ∧
        Makes (afterAll before a) id parent op ∧ (afterAll before a).isLive parent = true ∧
        (op.after (afterAll before a)).scope? id = some s ∧ s.Akin t := by
  induction ops generalizing a with
  | nil => exact .inl ⟨t, there, .refl t⟩
  | cons op ops ih =>
    obtain ⟨s, here, akin⟩ | ⟨before, other, later, s, split, made⟩ :=
      ih ((op.changes a).wellFormed wf) there
    · cases fate wf op id with
      | kept keeps =>
        obtain ⟨r, first, akin'⟩ := keeps.2 s here
        exact .inl ⟨r, first, akin'.trans akin⟩
      | finished _ gone =>
        rw [gone] at here
        cases here
      | made _ now inside =>
        rw [now] at here
        cases here
        obtain ⟨makes, live⟩ := inside parent (akin.parent.symm.trans hp)
        exact .inr ⟨[], op, ops, s, rfl, makes, live, now, akin⟩
    · exact .inr ⟨op :: before, other, later, s, by rw [split, List.cons_append], made⟩

/-- At the beginning there is no scope inside another. -/
theorem parent_of_scope?_ofGlobals {policy : AssignmentPolicy} {bindings : List (String × Value)}
    {id : ScopeId} {s : Scope ο} (here : (ofGlobals policy bindings).scope? id = some s) :
    s.parent = none := by
  rw [scope?_eq_some_iff] at here
  have mem := Array.mem_of_getElem? here
  simp only [ofGlobals, List.mem_toArray, List.mem_singleton, Slot.mk.injEq,
    Option.some.injEq] at mem
  rw [mem.2]

/-- An activation is opened inside a scope that is live, and stays live. -/
theorem isLive_of_pushFunction {a b : Arena ο} (wf : a.WellFormed) {parent id : ScopeId}
    (answered : (Arena.pushFunction parent).on a = (.ok id, b)) : b.isLive parent = true := by
  have answer := on_pushFunction a parent
  cases live : a.scope? parent with
  | none =>
    rw [live, answered] at answer
    cases answer
  | some s =>
    rw [live, answered] at answer
    cases answer
    have different : parent ≠ (a.allocate (blank .function (some parent))).1 := by
      intro same
      rw [same, wf.scope?_fst_allocate] at live
      cases live
    rw [isLive_iff]
    exact ⟨s, by rw [wf.scope?_allocate, if_neg different, live]⟩

/-- An object is made inside a scope that is live, and stays so unless it is let go beforehand. -/
theorem isLive_of_newObject {a b : Arena ο} (wf : a.WellFormed) {held : List Value}
    {parent id : ScopeId} (answered : (Arena.newObject held (some parent)).on a = (.ok id, b)) :
    b.isLive parent = true ∨ LetGo a held (a.reclaim held).2 parent := by
  have answer := on_newObject a held (some parent)
  cases live : a.isLive parent with
  | false =>
    simp only [Option.filter, live, Bool.not_false, if_true, answered] at answer
    cases answer
  | true =>
    simp only [Option.filter, live, Bool.not_true, Bool.false_eq_true, if_false, answered] at answer
    cases answer
    obtain same | gone := scope?_reclaim held a parent
    · left
      obtain ⟨s, here⟩ := (a.isLive_iff parent).1 live
      have reclaimed := (a.turnovers_reclaim held).wellFormed wf
      rw [here] at same
      have different :
          parent ≠ ((a.reclaim held).2.allocate (blank .object (some parent))).1 := by
        intro equal
        rw [equal, reclaimed.scope?_fst_allocate] at same
        cases same
      rw [isLive_iff]
      exact ⟨s, by rw [reclaimed.scope?_allocate, if_neg different, same]⟩
    · exact .inr gone

/-- A scope with a parent was made inside it while it was live, and the parent is the same scope
still, unless an operation from then on has finished it. A new scope's parent is live, unless
reclaiming has just let it go. -/
theorem parent_live_or_ended (policy : AssignmentPolicy) (bindings : List (String × Value))
    (ops : List (Operation ο)) :
    let start : Arena ο := ofGlobals policy bindings
    (∀ id t parent, (afterAll ops start).scope? id = some t → t.parent = some parent →
      ∃ before op later, ops = before ++ op :: later ∧
        Makes (afterAll before start) id parent op ∧
        (∃ s, (op.after (afterAll before start)).scope? id = some s ∧ s.Akin t) ∧
        ∃ p, (afterAll before start).scope? parent = some p ∧
          ((∃ q, (afterAll ops start).scope? parent = some q ∧ p.Akin q) ∨
            ∃ earlier ending rest, op :: later = earlier ++ ending :: rest ∧
              Finishes (afterAll (before ++ earlier) start) parent ending)) ∧
    (∀ parent id b, (Arena.pushFunction parent).on (afterAll ops start) = (.ok id, b) →
      b.isLive parent = true) ∧
    ∀ held parent id b, (Arena.newObject held (some parent)).on (afterAll ops start) = (.ok id, b) →
      b.isLive parent = true ∨
        LetGo (afterAll ops start) held ((afterAll ops start).reclaim held).2 parent := by
  intro start
  have wf : ∀ ops, (afterAll ops start).WellFormed := fun ops =>
    wellFormed_afterAll ops (wellFormed_ofGlobals policy bindings)
  refine ⟨?_, ?_, ?_⟩
  · intro id t parent there hp
    obtain ⟨s, here, akin⟩ | ⟨before, op, later, s, split, makes, live, now, akin⟩ :=
      akin_or_made ops (wf []) there hp
    · have outermost := parent_of_scope?_ofGlobals here
      rw [← akin.parent, hp] at outermost
      cases outermost
    · obtain ⟨p, here⟩ := (isLive_iff _ _).1 live
      refine ⟨before, op, later, split, makes, ⟨s, now, akin⟩, p, here, ?_⟩
      have onward := akin_or_finished (op :: later) (wf before) here
      rw [← afterAll_append, ← split] at onward
      simpa only [afterAll_append] using onward
  · intro parent id b answered
    exact isLive_of_pushFunction (wf ops) answered
  · intro held parent id b answered
    exact isLive_of_newObject (wf ops) answered

/-- An activation inside an object, then another one inside that, or else an object. -/
theorem parent_live_or_ended_nested :
    let a : Arena Unit := afterAll [.newObject [] none, .pushFunction ⟨1, 0⟩] (ofGlobals .strict [])
    (∃ before op later, [.newObject [] none, .pushFunction ⟨1, 0⟩] = before ++ op :: later ∧
      Makes (afterAll before (ofGlobals .strict [] : Arena Unit)) ⟨2, 0⟩ ⟨1, 0⟩ op) ∧
      ((Arena.pushFunction ⟨2, 0⟩).on a).2.isLive ⟨2, 0⟩ = true ∧
      (((Arena.newObject [] (some ⟨2, 0⟩)).on a).2.isLive ⟨2, 0⟩ = true ∨
        LetGo a [] (a.reclaim []).2 ⟨2, 0⟩) := by
  intro a
  have here : a.scope? ⟨2, 0⟩ =
      some { kind := .function, parent := some ⟨1, 0⟩, created := 2 } := rfl
  have pushes : (Arena.pushFunction ⟨2, 0⟩).on a =
      (.ok ⟨3, 0⟩, ((Arena.pushFunction ⟨2, 0⟩).on a).2) := Prod.ext rfl rfl
  have makes : (Arena.newObject [] (some ⟨2, 0⟩)).on a =
      (.ok ⟨1, 1⟩, ((Arena.newObject [] (some ⟨2, 0⟩)).on a).2) := Prod.ext rfl rfl
  obtain ⟨inside, pushed, made⟩ := parent_live_or_ended .strict []
    ([.newObject [] none, .pushFunction ⟨1, 0⟩] : List (Operation Unit))
  obtain ⟨before, op, later, split, by_op, -⟩ := inside ⟨2, 0⟩ _ ⟨1, 0⟩ here rfl
  exact ⟨⟨before, op, later, split, by_op⟩, pushed ⟨2, 0⟩ ⟨3, 0⟩ _ pushes,
    made [] ⟨2, 0⟩ ⟨1, 1⟩ _ makes⟩

/-- An activation inside an object stays when nobody holds the object any more and objects are
reclaimed. -/
theorem parent_not_always_live :
    ¬ ∀ (ops : List (Operation Unit)) (id : ScopeId) (s : Scope Unit) (parent : ScopeId),
      (afterAll ops (ofGlobals .strict [])).scope? id = some s → s.parent = some parent →
        (afterAll ops (ofGlobals .strict [])).isLive parent = true := by
  intro always
  have live := always [.newObject [] none, .pushFunction ⟨1, 0⟩, .reclaim []] ⟨2, 0⟩
    { kind := .function, parent := some ⟨1, 0⟩, created := 2 } ⟨1, 0⟩ rfl rfl
  exact absurd live (by decide)

end Operation

end Fluent

import Fluent.Proofs.Arena.Isolation
import Fluent.Proofs.Arena.Slots

/-!
# Generations that come round

An open argument list knows the bindings that were written meanwhile by the handles of their scopes,
also of scopes that are gone. It takes no note of writes to scopes younger than itself, so it must
not know an older scope under the same handle. It does not as long as no two scopes have had the
handle since the lists were opened.

Generations are counted modulo `2 ^ 32`, so a slot that is released that often gives out its handles
again. Main statements: `GivenOnce.unknown`, what a list knows until then; `afterAll_turns`, what
many activations leave that follow one another; and `afterAll_comingRound`, a run after which a list
knows an older scope under the handle of a younger one.
-/
namespace Fluent

open Arena

namespace Operation

variable {ο : Type}

/-- What a list knows after an operation it knew before, unless the operation writes it to a scope
that the list is not older than. -/
theorem known_after {op : Operation ο} {a : Arena ο} {frame : Frame}
    (mem : frame ∈ (op.after a).journal) {place : Place} {w : Written}
    (found : frame.touched.find? place = some w) :
    (∃ old ∈ a.journal, old.opened = frame.opened ∧ old.touched.find? place = some w) ∨
      ∃ s, a.scope? place.scope = some s ∧ s.created ≤ frame.opened := by
  have effect := op.effect_after a
  cases lands : op.write? a with
  | some write =>
    rw [lands] at effect
    obtain ⟨s, live, -, after⟩ := effect
    rw [after] at mem
    obtain ⟨old, inside, opened, rest⟩ := exists_of_mem_noteWrite mem
    obtain known | ⟨rfl, older⟩ := rest place w found
    · exact .inl ⟨old, inside, opened.symm, known⟩
    · exact .inr ⟨s, live, opened ▸ older⟩
  | none =>
    rw [lands] at effect
    cases op with
    | openArguments =>
      obtain rfl | inside := List.mem_cons.1 mem
      · cases found
      · exact .inl ⟨frame, inside, rfl, found⟩
    | beginArgument index =>
      obtain ⟨old, inside, opened, touched⟩ := exists_of_mem_beginArgument mem
      exact .inl ⟨old, inside, opened.symm, touched ▸ found⟩
    | closeArguments => exact .inl ⟨frame, List.mem_of_mem_tail mem, rfl, found⟩
    | _ =>
      rw [(effect rfl).journal_eq] at mem
      exact .inl ⟨frame, mem, rfl, found⟩

/-- By induction on the operations, from when no list was open: what a list knows is a binding of a
scope that was there before the list was opened. -/
theorem known_afterAll (ops : List (Operation ο)) {quiet : Arena ο} (closed : quiet.journal = [])
    {frame : Frame} (mem : frame ∈ (afterAll ops quiet).journal) {place : Place} {w : Written}
    (found : frame.touched.find? place = some w) :
    ∃ before later s, ops = before ++ later ∧
      (afterAll before quiet).scope? place.scope = some s ∧ s.created ≤ frame.opened := by
  induction ops using List.reverseRecOn generalizing frame w with
  | nil =>
    rw [afterAll_nil, closed] at mem
    cases mem
  | append_singleton ops op ih =>
    rw [afterAll_append] at mem
    obtain ⟨old, inside, opened, known⟩ | ⟨s, live, older⟩ := known_after mem found
    · obtain ⟨before, later, s, rfl, live, older⟩ := ih inside known
      exact ⟨before, later ++ [op], s, List.append_assoc _ _ _, live, opened ▸ older⟩
    · exact ⟨ops, [op], s, rfl, live, older⟩

end Operation

namespace Arena

variable {ο : Type}

open Operation

/-- Since some time at which no list was open, the operations that have led to the arena have
released the slot of the handle less than `2 ^ 32` times. So no two scopes have had the handle since
the lists were opened that are open now. -/
def GivenOnce (a : Arena ο) (id : ScopeId) : Prop :=
  ∃ quiet ops, quiet.Reachable ∧ quiet.journal = [] ∧ a = afterAll ops quiet ∧
    releases id.index ops quiet < 2 ^ 32

/-- Where no list is open, that is so of every handle. -/
theorem Reachable.givenOnce {a : Arena ο} (h : a.Reachable) (closed : a.journal = [])
    (id : ScopeId) : a.GivenOnce id :=
  ⟨a, [], h, closed, rfl, Nat.two_pow_pos 32⟩

/-- A list knows nothing of a scope that is younger than itself. -/
theorem GivenOnce.unknown {a : Arena ο} {id : ScopeId} (h : a.GivenOnce id) {s : Scope ο}
    (live : a.scope? id = some s) {frame : Frame} (mem : frame ∈ a.journal)
    (older : frame.opened < s.created) (name : String) :
    frame.touched.find? ⟨id, name⟩ = none := by
  obtain ⟨quiet, ops, reachable, closed, rfl, few⟩ := h
  by_contra known
  obtain ⟨w, found⟩ := Option.ne_none_iff_exists'.1 known
  obtain ⟨before, later, t, rfl, here, age⟩ := known_afterAll ops closed mem found
  rw [releases_append] at few
  rw [afterAll_append] at live
  have since : releases id.index later (afterAll before quiet) < 2 ^ 32 := by omega
  -- the handle was live then and is live now, so its slot has not been released since
  obtain ⟨stays, none⟩ := isLive_afterAll_iff later
    (wellFormed_afterAll before reachable.wellFormed) here since
  obtain ⟨u, there, akin⟩ := stays (none.1 ((isLive_iff _ _).2 ⟨s, live⟩))
  rw [live] at there
  cases there
  have := akin.created
  omega

end Arena

namespace Operation

variable {ο : Type}

/-- So many activations, each of which ends before the next one begins. They have the same slot, and
the first of them has it at the given generation. -/
def turns (index : Nat) (first : UInt32) : Nat → List (Operation ο)
  | 0 => []
  | n + 1 =>
    turns index first n ++ [.pushFunction global, .popFunction ⟨index, first + UInt32.ofNat n⟩]

section

variable {a : Arena ο} {index : Nat}

/-- A change of one slot is known by what it makes of that slot. -/
theorem modify_eq_of_slot {slots changed : Array (Slot ο)} {slot : Slot ο}
    (f : Slot ο → Slot ο) (found : changed[index]? = some (f slot))
    (spared : ∀ i, index ≠ i → changed[i]? = slots[i]?) (before : slots[index]? = some slot) :
    changed = slots.modify index f := by
  refine Array.ext_getElem? fun i => ?_
  rw [Array.getElem?_modify]
  by_cases same : index = i
  · subst same
    rw [if_pos rfl, found, before]
    rfl
  · rw [if_neg same, spared i same]

/-- An activation that has ended leaves its slot one generation older, and nothing else. -/
theorem afterAll_turn (live : a.isLive global = true) (free : a.free.head? = some index)
    {generation : UInt32} (empty : a.slots[index]? = some ⟨generation, none⟩) :
    afterAll [.pushFunction global, .popFunction ⟨index, generation⟩] a =
      { a with
        slots := a.slots.modify index fun _ => ⟨generation + 1, none⟩
        clock := a.clock + 1 } := by
  obtain ⟨g, here⟩ := (isLive_iff _ _).1 live
  obtain ⟨rest, free⟩ := List.head?_eq_some_iff.1 free
  have pushed : (pushFunction global : Operation ο).after a =
      (a.allocate (blank .function (some global))).2 := by
    simp only [after, perform, snd_on_forget, on_pushFunction, here]
  have there : (a.allocate (blank .function (some global))).2.scope? ⟨index, generation⟩ =
      some { blank .function (some global) with created := a.clock + 1 } := by
    rw [scope?_eq_some_iff]
    simp [allocate, free, Array.getElem?_modify, empty]
  have popped : (popFunction ⟨index, generation⟩ : Operation ο).after
      (a.allocate (blank .function (some global))).2 =
        (a.allocate (blank .function (some global))).2.release index := by
    simp only [after, perform, snd_on_forget, on_popFunction, there]
    rfl
  rw [afterAll_cons, afterAll_cons, afterAll_nil, pushed, popped]
  simp only [release, allocate, free]
  congr 1
  refine modify_eq_of_slot _ ?_ (fun i apart => ?_) empty
  · simp [Array.getElem?_modify, empty]
  · simp [Array.getElem?_modify, apart]

/-- By induction on their number: after so many activations the slot is so many generations older,
and nothing else is different. -/
theorem afterAll_turns (live : a.isLive global = true) (free : a.free.head? = some index)
    {first : UInt32} (empty : a.slots[index]? = some ⟨first, none⟩) (n : Nat) :
    afterAll (turns index first n) a =
      { a with
        slots := a.slots.modify index fun _ => ⟨first + UInt32.ofNat n, none⟩
        clock := a.clock + n } := by
  have apart : index ≠ global.index := by
    rintro rfl
    obtain ⟨g, here⟩ := (isLive_iff _ _).1 live
    rw [scope?_eq_some_iff, empty] at here
    cases here
  induction n with
  | zero =>
    have same := modify_eq_of_slot (fun _ => ⟨first, none⟩) empty (fun _ _ => rfl) empty
    simp [turns, ← same]
  | succ n ih =>
    rw [turns, afterAll_append, ih, afterAll_turn]
    · congr 1
      refine modify_eq_of_slot _ ?_ (fun i apart => ?_) empty
      · simp [Array.getElem?_modify, empty, UInt32.ofNat_add, UInt32.add_assoc]
      · simp [Array.getElem?_modify, apart]
    · rw [isLive, scope?_congr (b := a)]
      · exact live
      · simp [Array.getElem?_modify, apart]
    · exact free
    · simp [Array.getElem?_modify, empty]

end

/-- An activation binds an array. Then a list is opened, and its first argument binds another array
in its place and ends the activation. -/
def leaving : List (Operation (Unit → Unit)) :=
  [.pushFunction global, .define ⟨1, 0⟩ "xs" (.array [.bool true, .bool false]), .openArguments,
    .beginArgument 0, .define ⟨1, 0⟩ "xs" (.array []), .popFunction ⟨1, 0⟩]

/-- The list knows the first array, and the slot of the activation is at this generation. -/
def left (generation : UInt32) (clock : Nat) : Arena (Unit → Unit) where
  slots := #[{ scope := some { kind := .global, parent := none } }, ⟨generation, none⟩]
  free := [1]
  policy := .strict
  clock := clock
  journal :=
    [{ opened := 1
       touched := .ofList [(⟨⟨1, 0⟩, "xs"⟩, ⟨some (.array [.bool true, .bool false]), 0⟩)] }]

theorem afterAll_leaving : afterAll leaving (ofGlobals .strict []) = left 1 1 := by
  rfl

/-- Other activations follow until one of them, which the second argument of the list begins, has
the handle of the first one. -/
def comingRound : List (Operation (Unit → Unit)) :=
  leaving ++ (turns 1 1 (2 ^ 32 - 1) ++ [.beginArgument 1, .pushFunction global])

/-- The list still knows the first array, and under the same handle there is a younger scope, which
has no binding. -/
def comeRound : Arena (Unit → Unit) where
  slots :=
    #[{ scope := some { kind := .global, parent := none } },
      { scope := some { kind := .function, parent := some global, created := 2 ^ 32 + 1 } }]
  policy := .strict
  clock := 2 ^ 32 + 1
  journal :=
    [{ opened := 1
       current := 1
       touched := .ofList [(⟨⟨1, 0⟩, "xs"⟩, ⟨some (.array [.bool true, .bool false]), 0⟩)] }]

theorem afterAll_turns_left : afterAll (turns 1 1 (2 ^ 32 - 1)) (left 1 1) = left 0 (2 ^ 32) := by
  rw [afterAll_turns rfl rfl rfl]
  rfl

theorem afterAll_comingRound : afterAll comingRound (ofGlobals .strict []) = comeRound := by
  rw [comingRound, afterAll_append, afterAll_append, afterAll_leaving, afterAll_turns_left]
  rfl

end Operation

end Fluent

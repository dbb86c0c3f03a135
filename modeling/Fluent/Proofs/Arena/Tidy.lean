import Fluent.Proofs.Arena.Naming
import Fluent.Proofs.Arena.Reclaiming
import Fluent.Proofs.Arena.Stems

/-!
# Tidy custody

Evaluations start from an arena in which every object is held, by somebody outside or by a binding.
What they do since keeps a custody tidy: the scopes that were there stay, and bind what they bound,
up to order; scopes that are made since hold objects only that are older than they are themselves.

Main statements: `Tidy.advance` and `Tidy.grow`, what the steps of an evaluation have in common;
`Tidy.reclaim`, nothing that was there is reclaimed; `Tidy.isLive_eq`, when nobody holds more than
in the beginning, reclaiming leaves no new object.
-/
namespace Fluent

namespace Arena

open Value (Rearranged)

variable {ο : Type}

/-- All handles that the value has are of the kind. -/
def OnlyHandles (P : ScopeId → Prop) (v : Option Value) : Prop :=
  ∀ u, v = some u → ∀ id ∈ u.objects, P id

/-- The value has the handle. -/
def HasHandle (id : ScopeId) (v : Option Value) : Prop :=
  ∃ u, v = some u ∧ id ∈ u.objects

theorem HasHandle.rearranged {v w : Option Value} (same : Rearranged v w) (id : ScopeId) :
    HasHandle id w ↔ HasHandle id v := by
  obtain rfl | ⟨xs, ys, rfl, rfl, perm⟩ := same
  · rfl
  · simp [HasHandle, mem_objects_array, HeldBy, perm.mem_iff]

theorem upToOrder_hasHandle (id : ScopeId) : UpToOrder (HasHandle id) :=
  fun _ _ has same => (HasHandle.rearranged same id).2 has

theorem upToOrder_onlyHandles (P : ScopeId → Prop) : UpToOrder (OnlyHandles P) := by
  intro v w only same u hu id handle
  obtain ⟨u', hv, handle'⟩ := (HasHandle.rearranged same id).1 ⟨u, hu, handle⟩
  exact only u' hv id handle'

/-- The values of a binding are held. -/
theorem Every.of_heldValues {a : Arena ο} {P : Option Value → Prop} {place : Place}
    (none : P none) (h : ∀ v ∈ a.heldValues, P (some v)) : a.Every P place := by
  constructor
  · cases stored : a.stored? place.scope place.name with
    | none => exact none
    | some v =>
      obtain ⟨s, live, bound⟩ := Option.bind_eq_some_iff.1 stored
      exact h v (mem_heldValues.2 (.inl ⟨_, s, live, Table.mem_values_of_find? bound⟩))
  · intro frame opened w touched
    cases prior : w.prior with
    | none => exact none
    | some v =>
      exact h v (mem_heldValues.2
        (.inr ⟨frame, opened, w, Table.mem_values_of_find? touched, prior⟩))

/-- What every value of a binding has, it has among the values that are held. -/
theorem Every.imp {a : Arena ο} {P Q : Option Value → Prop} {place : Place} (h : a.Every P place)
    (imp : ∀ v, (∀ u, v = some u → u ∈ a.heldValues) → P v → Q v) : a.Every Q place := by
  constructor
  · refine imp _ (fun u stored => ?_) h.1
    obtain ⟨s, live, bound⟩ := Option.bind_eq_some_iff.1 stored
    exact mem_heldValues.2 (.inl ⟨_, s, live, Table.mem_values_of_find? bound⟩)
  · intro frame opened w touched
    refine imp _ (fun u prior => ?_) (h.2 frame opened w touched)
    exact mem_heldValues.2 (.inr ⟨frame, opened, w, Table.mem_values_of_find? touched, prior⟩)

theorem WellFormed.every_of_allocate {a b : Arena ο} (wf : a.WellFormed) {kind : ScopeKind}
    {parent : Option ScopeId} {id : ScopeId} (made : a.allocate (blank kind parent) = (id, b))
    (proper : kind ≠ .global) {P : Option Value → Prop} (none : P none)
    (h : ∀ v ∈ a.heldValues, P (some v)) (place : Place) : b.Every P place := by
  have turnover : Turnovers a b := .single (.of_allocate_eq proper made)
  exact .of_heldValues none fun v mem => h v (turnover.mem_heldValues wf mem)

section

variable {values : List Value} {id : ScopeId} {a b : Arena ο}

theorem FillsWith.every (h : FillsWith values id a b) {P : Option Value → Prop} {place : Place}
    (before : a.Every P place) (given : ∀ v ∈ values, P (some v)) : b.Every P place := by
  induction h with
  | refl => exact before
  | tail _ fill ih =>
    obtain ⟨s, name, value, mem, live, rfl⟩ := fill
    exact ih.written live fun _ => given value mem

theorem FillsWith.mem_heldValues (h : FillsWith values id a b) {v : Value}
    (held : v ∈ b.heldValues) : v ∈ values ∨ v ∈ a.heldValues := by
  induction h with
  | refl => exact .inr held
  | tail _ fill ih =>
    obtain ⟨s, name, value, mem, live, rfl⟩ := fill
    obtain rfl | held := mem_heldValues_written live held
    · exact .inl mem
    · exact ih held

theorem Fills.clock_eq (h : Fills id a b) : b.clock = a.clock := by
  induction h with
  | refl => rfl
  | tail _ fill ih =>
    obtain ⟨s, name, value, live, rfl⟩ := fill
    exact ih

theorem Fills.exists_akin (h : Fills id a b) {other : ScopeId} {t : Scope ο}
    (there : b.scope? other = some t) : ∃ s, a.scope? other = some s ∧ s.Akin t := by
  induction h generalizing t with
  | refl => exact ⟨t, there, .refl t⟩
  | tail _ fill ih =>
    obtain ⟨s, name, value, live, rfl⟩ := fill
    obtain ⟨u, here, akin⟩ := exists_akin_of_written live there
    obtain ⟨r, first, akin'⟩ := ih here
    exact ⟨r, first, akin'.trans akin⟩

/-- What was there before a scope was made and filled is there afterwards. -/
theorem WellFormed.exists_akin_of_filled (wf : a.WellFormed) {kind : ScopeKind}
    {parent : Option ScopeId} (made : a.allocate (blank kind parent) = (id, b)) {d : Arena ο}
    (filled : Fills id b d) {other : ScopeId} {s : Scope ο} (here : a.scope? other = some s) :
    ∃ t, d.scope? other = some t ∧ s.Akin t := by
  have kept := wf.scope?_of_allocate_eq made other
  rw [if_neg, here] at kept
  · exact filled.akin kept
  · rintro rfl
    have unknown := wf.scope?_fst_allocate (blank kind parent)
    rw [made, here] at unknown
    cases unknown

/-- The scope that was made and filled is the only one that is younger. -/
theorem WellFormed.eq_of_younger (wf : a.WellFormed) {kind : ScopeKind} {parent : Option ScopeId}
    (made : a.allocate (blank kind parent) = (id, b)) {d : Arena ο} (filled : Fills id b d)
    {other : ScopeId} {t : Scope ο} (there : d.scope? other = some t)
    (young : a.clock < t.created) : other = id := by
  obtain ⟨s, before, akin⟩ := filled.exists_akin there
  by_contra apart
  have known := wf.scope?_of_allocate_eq made other
  rw [if_neg apart, before] at known
  have bound := wf.created_le other s known.symm
  have created := akin.created
  omega

end

end Arena

namespace Custody

open Arena Value

variable {ο : Type} {o c d : Custody ο}

/-- A write is carried out by those who hold its value. -/
theorem Sound.fillsWith {held values : List Value} {made : ScopeId → Nat} {id : ScopeId}
    {a b : Arena ο} (sound : Sound ⟨a, held, made⟩) (filled : FillsWith values id a b)
    (given : Covers held values) : Sound ⟨b, held, made⟩ := by
  induction filled with
  | refl => exact sound
  | tail _ fill ih =>
    obtain ⟨s, name, value, mem, live, rfl⟩ := fill
    have draws : (Operation.define id name value : Operation ο).Draws held :=
      given.trans (covers_of_subset fun v hv => List.mem_singleton.1 hv ▸ mem)
    have after := ih.operate draws
    simpa [Operation.after, Operation.perform, on_define, live] using after

theorem Sound.made_le (sound : c.Sound) {id : ScopeId}
    (held : HeldBy (c.held ++ c.arena.heldValues) id) : c.made id ≤ c.arena.clock := by
  obtain ⟨s, live, -, created⟩ := sound.designates id held
  exact created ▸ sound.wellFormed.created_le id s live

/-- No list is open, no binding has a native function, and every object is held. -/
structure Settled (c : Custody ο) : Prop where
  sound : c.Sound
  quiet : c.arena.journal = []
  named : c.arena.Named
  gentle : ¬ SomeNative c.arena.heldValues
  supported : ∀ id s, c.arena.scope? id = some s → s.kind = .object →
    HeldBy (c.held ++ c.arena.heldValues) id

/-- From the first custody to the second, the scopes that were there have stayed, and their bindings
have at most been rearranged. Scopes that are new have handles only to objects that were made before
them. -/
structure Tidy (o c : Custody ο) : Prop where
  settled : o.Settled
  sound : c.Sound
  gentle : ¬ SomeNative c.arena.heldValues
  clock_le : o.arena.clock ≤ c.arena.clock
  stays : ∀ id s, o.arena.scope? id = some s → ∃ t, c.arena.scope? id = some t ∧ s.Akin t
  conserves : o.arena.Conserves c.arena
  ordered : ∀ id t, c.arena.scope? id = some t → o.arena.clock < t.created → ∀ name,
    c.arena.Every (OnlyHandles fun other => c.made other < t.created) ⟨id, name⟩

theorem Settled.tidy (h : o.Settled) : Tidy o o where
  settled := h
  sound := h.sound
  gentle := h.gentle
  clock_le := Nat.le_refl _
  stays id s here := ⟨s, here, .refl s⟩
  conserves := .refl _
  ordered id t there newer := by
    have old := h.sound.wellFormed.created_le id t there
    omega

theorem Tidy.keep (h : Tidy o c) {held : List Value}
    (covered : Covers (c.held ++ c.arena.heldValues) held) : Tidy o ⟨c.arena, held, c.made⟩ :=
  { h with sound := (Step.keep held covered).sound h.sound }

/-- A step that makes no scope: it conserves the bindings and releases no scope that was there in
the beginning. -/
theorem Tidy.advance (h : Tidy o c) (sound : d.Sound) (gentle : ¬ SomeNative d.arena.heldValues)
    (clock : d.arena.clock = c.arena.clock) (made : d.made = c.made)
    (conserves : c.arena.Conserves d.arena)
    (stays : ∀ id s t, o.arena.scope? id = some s → c.arena.scope? id = some t → s.Akin t →
      ∃ u, d.arena.scope? id = some u ∧ t.Akin u) : Tidy o d where
  settled := h.settled
  sound := sound
  gentle := gentle
  clock_le := clock ▸ h.clock_le
  stays id s here := by
    obtain ⟨t, there, akin⟩ := h.stays id s here
    obtain ⟨u, after, akin'⟩ := stays id s t here there akin
    exact ⟨u, after, akin.trans akin'⟩
  conserves := h.conserves.trans conserves h.clock_le
  ordered id u there newer name := by
    have age := sound.wellFormed.created_le id u there
    obtain ⟨t, before, created, -, -, keep⟩ := conserves id u there (clock ▸ age)
    rw [made, ← created]
    exact keep name _ (upToOrder_onlyHandles _) (h.ordered id t before (created ▸ newer) name)

/-- An open list hides nothing that is there for good, and neither what is opened nor what is closed
touches a scope. -/
theorem Tidy.handleLists (h : Tidy o c) (op : Operation ο) (lists : op.handlesLists = true) :
    Tidy o ⟨op.after c.arena, c.held, c.made⟩ := by
  have facts : (∀ id, (op.after c.arena).scope? id = c.arena.scope? id) ∧
      (op.after c.arena).clock = c.arena.clock ∧ op.Draws c.held ∧
      ∀ frame ∈ (op.after c.arena).journal, frame.touched = {} ∨
        ∃ known ∈ c.arena.journal, frame.touched = known.touched := by
    cases op with
    | openArguments =>
      refine ⟨fun _ => rfl, rfl, trivial, fun frame mem => ?_⟩
      obtain rfl | mem := List.mem_cons.1 mem
      · exact .inl rfl
      · exact .inr ⟨frame, mem, rfl⟩
    | beginArgument index =>
      refine ⟨scope?_beginArgument _ index, clock_beginArgument _ index, trivial,
        fun frame mem => ?_⟩
      obtain ⟨old, mem, -, touched⟩ := exists_of_mem_beginArgument mem
      exact .inr ⟨old, mem, touched⟩
    | closeArguments =>
      refine ⟨fun _ => rfl, rfl, trivial, fun frame mem => ?_⟩
      exact .inr ⟨frame, List.mem_of_mem_tail mem, rfl⟩
    | _ => cases lists
  obtain ⟨scopes, clock, draws, priors⟩ := facts
  refine h.advance (h.sound.operate draws) (fun native => h.gentle (native.mono ?_)) clock rfl
    (.of_scope?_eq scopes ?_) fun id s t _ there _ => ⟨t, (scopes id).trans there, .refl t⟩
  · intro v held
    obtain ⟨id, s, live, bound⟩ | ⟨frame, mem, w, touched, prior⟩ := mem_heldValues.1 held
    · exact mem_heldValues.2 (.inl ⟨id, s, (scopes id).symm.trans live, bound⟩)
    · obtain empty | ⟨known, mem, same⟩ := priors frame mem
      · rw [empty] at touched
        cases touched
      · exact mem_heldValues.2 (.inr ⟨known, mem, w, same ▸ touched, prior⟩)
  · intro frame mem place w touched
    obtain empty | ⟨known, mem, same⟩ := priors frame mem
    · rw [empty] at touched
      cases touched
    · exact ⟨known, mem, same ▸ touched⟩

/-- A binding may be given what it has already, in another order. -/
theorem Tidy.shuffle (h : Tidy o c) {id : ScopeId} {s : Scope ο} {name : String} {value : Value}
    (live : c.arena.scope? id = some s)
    (same : Rearranged (c.arena.findLocal? id name) (some value)) (given : Covers c.held [value])
    (plain : value.hasNative = false) :
    Tidy o ⟨c.arena.written id s name value, c.held, c.made⟩ := by
  have filled : FillsWith [value] id c.arena (c.arena.written id s name value) :=
    .single ⟨s, name, value, List.mem_singleton_self _, live, rfl⟩
  refine h.advance (Sound.fillsWith h.sound filled given) ?_ rfl rfl
    ((Conserves.refl _).written live (.inr same)) fun other _ t _ there _ =>
      akin_written live name value there
  rintro ⟨v, held, native⟩
  obtain mem | held := filled.mem_heldValues held
  · rw [List.mem_singleton.1 mem, plain] at native
    cases native
  · exact h.gentle ⟨v, held, native⟩

/-- A function scope that is new may be released. -/
theorem Tidy.release (h : Tidy o c) {frame : ScopeId} {s : Scope ο}
    (live : c.arena.scope? frame = some s) (function : s.kind = .function)
    (newer : o.arena.clock < s.created) :
    Tidy o ⟨c.arena.release frame.index, c.held, c.made⟩ := by
  have draws : (Operation.popFunction frame : Operation ο).Draws c.held := trivial
  have sound := h.sound.operate draws
  simp only [Operation.after, Operation.perform, Operation.snd_on_forget, on_popFunction, live,
    function, if_true] at sound
  refine h.advance sound (fun native => h.gentle (native.mono fun _ => mem_heldValues_release)) rfl
    rfl (conserves_release _ _) fun id r t here there akin => ⟨t, ?_, .refl t⟩
  rw [scope?_release_of_ne live, there]
  rintro rfl
  rw [live] at there
  cases there
  have old := h.settled.sound.wellFormed.created_le id r here
  have created := akin.created
  omega

/-- Objects that were held in the beginning are held by those who held them then, or by a binding
that was there then. -/
theorem Tidy.sustained (h : Tidy o c) (keeps : Covers c.held o.held) :
    c.arena.Sustained c.held fun id => ∃ s, o.arena.scope? id = some s := by
  rintro id ⟨s, here⟩
  obtain ⟨t, there, akin⟩ := h.stays id s here
  refine ⟨t, there, fun object => ?_⟩
  have held := h.settled.supported id s here (akin.kind.symm.trans object)
  obtain held | held := (heldBy_append _ _ id).1 held
  · exact .inl (keeps id held)
  · obtain ⟨other, r, name, v, live, bound, handle⟩ :=
      h.settled.named.exists_of_heldBy h.settled.quiet held
    obtain ⟨u, kept, akin'⟩ := h.stays other r live
    have old := h.settled.sound.wellFormed.created_le other r live
    obtain ⟨-, -, -, -, -, keep⟩ := h.conserves other u kept (akin'.created ▸ old)
    have before : o.arena.Every (HasHandle id) ⟨other, name⟩ := by
      refine ⟨⟨v, Option.bind_eq_some_iff.2 ⟨r, live, bound⟩, handle⟩, fun frame opened => ?_⟩
      rw [h.settled.quiet] at opened
      cases opened
    obtain ⟨v', stored, handle'⟩ := (keep name _ (upToOrder_hasHandle id) before).1
    obtain ⟨u', there', bound'⟩ := Option.bind_eq_some_iff.1 stored
    rw [kept] at there'
    cases there'
    exact .inr ⟨other, u, ⟨r, live⟩, kept, v', Table.mem_values_of_find? bound', handle'⟩

/-- Where those who hold values still hold what they held in the beginning, nothing that was there
then is reclaimed. -/
theorem Tidy.reclaim (h : Tidy o c) (keeps : Covers c.held o.held) :
    Tidy o ⟨(c.arena.reclaim c.held).2, c.held, c.made⟩ := by
  have turnovers := c.arena.turnovers_reclaim c.held
  refine h.advance h.sound.reclaim (fun native => h.gentle (native.mono fun _ =>
    turnovers.mem_heldValues h.sound.wellFormed)) ?_ rfl (turnovers.conserves h.sound.wellFormed)
    fun id s t here there _ => ⟨t, ?_, .refl t⟩
  · show (c.arena.reclaim c.held).2.clock = c.arena.clock
    rw [snd_reclaim, clock_foldl_release]
  · exact ((h.sustained keeps).scope?_reclaim ⟨s, here⟩).trans there

/-- A step that makes a scope and binds names in it to values that were held before it was made. -/
theorem Tidy.grow (h : Tidy o c) {kind : ScopeKind} (proper : kind ≠ .global)
    {parent : Option ScopeId} {id : ScopeId} {b : Arena ο}
    (made : c.arena.allocate (blank kind parent) = (id, b)) {values : List Value}
    (filled : FillsWith values id b d.arena) (sound : d.Sound)
    (same : ∀ other, HeldBy (c.held ++ c.arena.heldValues) other → d.made other = c.made other)
    (given : Covers c.held values) (plain : ¬ SomeNative values) : Tidy o d := by
  have wf := h.sound.wellFormed
  have turnover : Turnovers c.arena b := .single (.of_allocate_eq proper made)
  have own := wf.scope?_of_allocate_eq made id
  rw [if_pos rfl] at own
  have fills := filled.fills
  have clock : d.arena.clock = c.arena.clock + 1 := by
    have next := c.arena.clock_allocate (blank kind parent)
    rw [made] at next
    rw [fills.clock_eq, next]
  have conserves : c.arena.Conserves d.arena :=
    (turnover.conserves wf).fills fills own (Nat.lt_succ_self _)
  have old : ∀ v ∈ values ++ c.arena.heldValues, ∀ other ∈ v.objects,
      d.made other = c.made other ∧ c.made other ≤ c.arena.clock := by
    intro v mem other handle
    have held : HeldBy (c.held ++ c.arena.heldValues) other := by
      obtain mem | mem := List.mem_append.1 mem
      · exact (heldBy_append _ _ other).2 (.inl (given other ⟨v, mem, handle⟩))
      · exact (heldBy_append _ _ other).2 (.inr ⟨v, mem, handle⟩)
    exact ⟨same other held, h.sound.made_le held⟩
  refine
    { settled := h.settled
      sound := sound
      gentle := ?_
      clock_le := by
        have before := h.clock_le
        omega
      stays := fun other s here => ?_
      conserves := h.conserves.trans conserves h.clock_le
      ordered := fun other u there newer name => ?_ }
  · rintro ⟨v, held, native⟩
    obtain mem | held := filled.mem_heldValues held
    · exact plain ⟨v, mem, native⟩
    · exact h.gentle ⟨v, turnover.mem_heldValues wf held, native⟩
  · obtain ⟨t, there, akin⟩ := h.stays other s here
    obtain ⟨u, after, akin'⟩ := wf.exists_akin_of_filled made fills there
    exact ⟨u, after, akin.trans akin'⟩
  · obtain young | old_enough := Nat.lt_or_ge c.arena.clock u.created
    · -- the scope is the new one, and all that it binds was there before it
      obtain rfl := wf.eq_of_younger made fills there young
      have fresh : ∀ v ∈ values ++ c.arena.heldValues,
          OnlyHandles (fun other => d.made other < u.created) (some v) := by
        intro v mem w hw inner handle
        cases hw
        obtain ⟨equal, bound⟩ := old v mem inner handle
        omega
      have none : OnlyHandles (fun other => d.made other < u.created) none :=
        fun _ absurd => by cases absurd
      have empty := wf.every_of_allocate made proper none
        (fun v mem => fresh v (List.mem_append_right _ mem)) ⟨other, name⟩
      exact filled.every empty fun v mem => fresh v (List.mem_append_left _ mem)
    · obtain ⟨t, before, created, -, -, keep⟩ := conserves other u there old_enough
      have known := h.ordered other t before (created ▸ newer) name
      have older : c.arena.Every (OnlyHandles fun inner => d.made inner < u.created)
          ⟨other, name⟩ := by
        refine known.imp fun v held only w hw inner handle => ?_
        have equal := (old w (List.mem_append_right _ (held w hw)) inner handle).1
        have earlier := only w hw inner handle
        omega
      exact keep name _ (upToOrder_onlyHandles _) older

/-- A function's scope is opened, and its parameters are bound to values that are held. -/
theorem Tidy.enter (h : Tidy o c) {parent frame : ScopeId} {b e : Arena ο}
    (live : c.arena.isLive parent = true)
    (made : c.arena.allocate (blank .function (some parent)) = (frame, b)) {values : List Value}
    (filled : FillsWith values frame b e) (given : Covers c.held values)
    (plain : ¬ SomeNative values) : Tidy o ⟨e, c.held, c.made⟩ := by
  have draws : (Operation.pushFunction parent : Operation ο).Draws c.held := trivial
  obtain ⟨p, here⟩ := (isLive_iff _ _).1 live
  have opened := h.sound.operate draws
  simp only [Operation.after, Operation.perform, Operation.snd_on_forget, on_pushFunction, here,
    made] at opened
  exact h.grow (d := ⟨e, c.held, c.made⟩) (by simp) made filled
    (opened.fillsWith filled given) (fun _ _ => rfl) given plain

/-- An object is made of values that are held, and is held from then on. -/
theorem Tidy.create (h : Tidy o c) {parent : Option ScopeId} {id : ScopeId} {b e : Arena ο}
    (made : c.arena.allocate (blank .object parent) = (id, b)) {values : List Value}
    (filled : FillsWith values id b e) (given : Covers c.held values)
    (plain : ¬ SomeNative values) : ∃ made', Tidy o ⟨e, .object id :: c.held, made'⟩ := by
  obtain ⟨-, sound⟩ := h.sound.allocate parent made
  have missing := h.sound.wellFormed.scope?_fst_allocate (blank .object parent)
  rw [made] at missing
  have after := sound.fillsWith filled ((Covers.right [.object id] c.held).trans given)
  refine ⟨_, h.grow (d := ⟨e, .object id :: c.held, _⟩) (by simp) made filled after ?_ given plain⟩
  intro other held
  refine if_neg ?_
  rintro rfl
  obtain ⟨s, live, -⟩ := h.sound.designates other held
  rw [missing] at live
  cases live

/-- What reclaiming leaves is held. -/
theorem Tidy.settled_reclaim (h : Tidy o c) (keeps : Covers c.held o.held)
    (quiet : c.arena.journal = []) (named : c.arena.Named) :
    Settled ⟨(c.arena.reclaim c.held).2, c.held, c.made⟩ := by
  have tidy := h.reclaim keeps
  have turnovers := c.arena.turnovers_reclaim c.held
  exact
    { sound := tidy.sound
      quiet := turnovers.journal_eq.trans quiet
      named := turnovers.changes.named h.sound.wellFormed named
      gentle := tidy.gentle
      supported := fun _ _ live object => h.sound.wellFormed.heldBy_of_reclaim live object }

/-- What was there stays what it was. -/
theorem Tidy.created_le (h : Tidy o c) {id : ScopeId} {s t : Scope ο}
    (here : o.arena.scope? id = some s) (there : c.arena.scope? id = some t) :
    t.created ≤ o.arena.clock := by
  obtain ⟨u, kept, akin⟩ := h.stays id s here
  rw [there] at kept
  cases kept
  exact akin.created ▸ h.settled.sound.wellFormed.created_le id s here

/-- Bindings that were there in the beginning still have handles only to what was there. -/
theorem Tidy.live_of_bound (h : Tidy o c) {other : ScopeId} {r : Scope ο}
    (live : c.arena.scope? other = some r) (old : r.created ≤ o.arena.clock) {name : String}
    {v : Value} (bound : r.bindings.find? name = some v) {id : ScopeId} (handle : id ∈ v.objects) :
    ∃ s, o.arena.scope? id = some s := by
  obtain ⟨-, -, -, -, -, keep⟩ := h.conserves other r live old
  have before : o.arena.Every (OnlyHandles fun id => ∃ s, o.arena.scope? id = some s)
      ⟨other, name⟩ := by
    refine .of_heldValues (fun _ absurd => by cases absurd) fun v mem w hw inner handle => ?_
    cases hw
    obtain ⟨s, there, -⟩ := h.settled.sound.designates inner
      ((heldBy_append _ _ inner).2 (.inr ⟨v, mem, handle⟩))
    exact ⟨s, there⟩
  have stored : c.arena.stored? other name = some v := Option.bind_eq_some_iff.2 ⟨r, live, bound⟩
  exact (keep name _ (upToOrder_onlyHandles _) before).1 v stored id handle

/-- By induction from the youngest scope back: a new object would be held by a binding of a scope
that is younger still. -/
theorem Tidy.created_le_of_settled (h : Tidy o c) (settled : c.Settled)
    (only : Covers o.held c.held)
    (functions : ∀ id, c.arena.activation? id = o.arena.activation? id) {id : ScopeId} {t : Scope ο}
    (there : c.arena.scope? id = some t) : t.created ≤ o.arena.clock := by
  have wf := h.sound.wellFormed
  induction age : c.arena.clock - t.created using Nat.strongRecOn generalizing id t with
  | ind age ih =>
    cases kind : t.kind with
    | global =>
      obtain ⟨g, live, -, created⟩ := wf.global_live
      have same := wf.global_unique id t there kind
      rw [same, live] at there
      cases there
      omega
    | function =>
      have active := (c.arena.activation?_eq_some_iff id t.created).2 ⟨t, there, kind, rfl⟩
      rw [functions, activation?_eq_some_iff] at active
      obtain ⟨s, here, -, created⟩ := active
      exact created ▸ h.settled.sound.wellFormed.created_le id s here
    | object =>
      have held := settled.supported id t there kind
      obtain outside | inside := (heldBy_append _ _ id).1 held
      · obtain ⟨s, here, -⟩ := h.settled.sound.designates id
          ((heldBy_append _ _ id).2 (.inl (only id outside)))
        exact h.created_le here there
      · obtain ⟨other, r, name, v, live, bound, handle⟩ :=
          settled.named.exists_of_heldBy settled.quiet inside
        obtain newer | old := Nat.lt_or_ge o.arena.clock r.created
        · have stored : c.arena.stored? other name = some v :=
            Option.bind_eq_some_iff.2 ⟨r, live, bound⟩
          have earlier := (h.ordered other r live newer name).1 v stored id handle
          obtain ⟨t', there', -, created⟩ := h.sound.designates id held
          rw [there] at there'
          cases there'
          have bounds := wf.created_le other r live
          have absurd := ih (c.arena.clock - r.created) (by omega) live rfl
          omega
        · obtain ⟨s, here⟩ := h.live_of_bound live old bound handle
          exact h.created_le here there

/-- When those who hold values hold what they held in the beginning, the objects that are held are
those that were there. -/
theorem Tidy.isLive_eq (h : Tidy o c) (settled : c.Settled) (only : Covers o.held c.held)
    (functions : ∀ id, c.arena.activation? id = o.arena.activation? id) (id : ScopeId) :
    c.arena.isLive id = o.arena.isLive id := by
  rw [Bool.eq_iff_iff, isLive_iff, isLive_iff]
  constructor
  · rintro ⟨t, there⟩
    have old := h.created_le_of_settled settled only functions there
    obtain ⟨s, here, -⟩ := h.conserves id t there old
    exact ⟨s, here⟩
  · rintro ⟨s, here⟩
    obtain ⟨t, there, -⟩ := h.stays id s here
    exact ⟨t, there⟩

end Custody

end Fluent

import Fluent.Proofs.Evaluation.Upkeep

/-!
# Evaluations leak no scope

An interpreter whose host records is asked to evaluate expressions and to build views, one after the
other. When an answer has been dropped and what nobody holds has been reclaimed, the scopes that are
live are those that were live before, however the evaluation ended.

Main statements: `settled_cleared`, what one evaluation leaves behind;
`evaluations_leak_nothing`, what any number of them leaves.
-/
namespace Fluent

open Arena

namespace Interpreter

open EvalM Engine

variable {σ α : Type}

/-- The request is to evaluate an expression, or to build the view of one. -/
inductive Request.Evaluates : Request → Prop where
  | evaluate (e : Expr) (scope : ScopeId) : Evaluates (.evaluate e scope)
  | render (e : Expr) (scope : ScopeId) : Evaluates (.render e scope)

/-- The interpreter after a request, whose answer has been dropped, and a reclaim. -/
def cleared (i : Interpreter σ) (held : List Value) (request : Request) : Interpreter σ :=
  ((i.serve held request).2.serve held .reclaim).2

/-- The custody of those who hold these values around the interpreter. -/
def custody (i : Interpreter σ) (held : List Value) (made : ScopeId → Nat) : Custody (σ → σ) :=
  ⟨i.world.arena, held ++ i.world.kept, made⟩

/-- What has just been reclaimed is settled. -/
theorem settled_reclaim {i : Interpreter σ} {held : List Value} {made : ScopeId → Nat}
    (reached : (i.custody held made).Reached)
    (quiet : (i.serve held .reclaim).2.world.arena.journal = [])
    (gentle : ∀ v ∈ (i.serve held .reclaim).2.world.arena.heldValues, v.hasNative = false) :
    ((i.serve held .reclaim).2.custody held made).Settled where
  sound := reached.sound.reclaim
  quiet := quiet
  named := (turnovers_reclaim _ _).changes.named reached.sound.wellFormed reached.reachable.named
  gentle native := by
    obtain ⟨v, mem, native⟩ := native
    rw [gentle v mem] at native
    cases native
  supported _ _ live object := reached.sound.wellFormed.heldBy_of_reclaim live object

/-- An evaluation that keeps things in order leaves, after its answer has been dropped and objects
have been reclaimed, what was there. -/
theorem settled_of_steadies (i : Interpreter σ) {held : List Value} {made : ScopeId → Nat}
    (settled : (i.custody held made).Settled) {action : EvalM σ α} {post : α → List Value}
    (steadies : Steadies ⟨held, i.world, made⟩ [] [] action post) (activity : IsActivity action) :
    let w := (action.on held i.world).2
    ∃ made', (⟨(w.arena.reclaim (held ++ w.kept)).2, held ++ w.kept, made'⟩ :
        Custody (σ → σ)).Settled ∧
      ∀ id, (w.arena.reclaim (held ++ w.kept)).2.isLive id = i.world.arena.isLive id := by
  intro w
  have wf : i.world.arena.WellFormed := settled.sound.wellFormed
  have quiet : i.world.arena.journal = [] := settled.quiet
  have start : (⟨held, i.world, made⟩ : Outset σ).Orderly held [] i.world :=
    ⟨rfl, by simp, made, settled.tidy⟩
  have after := (steadies held i.world (by grind) (by simp) trivial start).drop
  have did := (activity held i.world wf trivial).1
  obtain ⟨made', tidy⟩ := after.tidy
  have kept : w.kept = i.world.kept := after.kept
  have same : held ++ w.kept = (i.custody held made).held := by rw [kept, custody]
  have keeps : Covers (held ++ w.kept) (i.custody held made).held := same ▸ fun _ h => h
  have only : Covers (i.custody held made).held (held ++ w.kept) := same ▸ fun _ h => h
  have closed : w.arena.journal = [] := by
    have lists := did.openLists_eq
    rw [openLists, openLists, quiet, List.map_nil, List.map_eq_nil_iff] at lists
    exact lists
  have resettled := tidy.settled_reclaim keeps closed ((did.changes wf).named wf settled.named)
  have functions := fun other =>
    (activation?_reclaim w.arena (held ++ w.kept) other).trans (did.activation?_eq wf other)
  exact ⟨made', resettled, (tidy.reclaim keeps).isLive_eq resettled only functions⟩

/-- One evaluation leaves an interpreter settled, with the same scopes. -/
theorem settled_cleared (i : Interpreter σ) {held : List Value} {made : ScopeId → Nat}
    (settled : (i.custody held made).Settled) (records : i.engine.OnlyRecords) {request : Request}
    (evaluates : request.Evaluates) :
    (i.cleared held request).engine = i.engine ∧
      (∃ made', ((i.cleared held request).custody held made').Settled) ∧
      ∀ id, (i.cleared held request).world.arena.isLive id = i.world.arena.isLive id := by
  cases evaluates with
  | evaluate e scope =>
    obtain ⟨made', resettled, same⟩ := i.settled_of_steadies settled
      (steadying_evaluate records e scope) (i.engine.acting_evaluate records.members e scope)
    exact ⟨rfl, ⟨made', resettled⟩, same⟩
  | render e scope =>
    obtain ⟨made', resettled, same⟩ := i.settled_of_steadies settled
      (steadies_render records e scope) (i.engine.acting_render records.members e scope)
    exact ⟨rfl, ⟨made', resettled⟩, same⟩

/-- By induction on the requests. -/
theorem isLive_foldl_cleared (requests : List Request) (i : Interpreter σ) {held : List Value}
    {made : ScopeId → Nat} (settled : (i.custody held made).Settled)
    (records : i.engine.OnlyRecords)
    (evaluate : ∀ request ∈ requests, request.Evaluates) (id : ScopeId) :
    (requests.foldl (fun j request => j.cleared held request) i).world.arena.isLive id =
      i.world.arena.isLive id := by
  induction requests generalizing i made with
  | nil => rfl
  | cons request rest ih =>
    obtain ⟨engine, ⟨made', resettled⟩, same⟩ :=
      i.settled_cleared settled records (evaluate request List.mem_cons_self)
    rw [List.foldl_cons, ih _ resettled (engine ▸ records)
      fun r mem => evaluate r (List.mem_cons_of_mem request mem), same]

/-- An interpreter has just reclaimed what nobody holds, no list is open in it, its handlers are
those of collections and record, and no binding has a native function. When it has evaluated an
expression or built a view, successfully or not, the answer has been dropped, and it has reclaimed
again, the same handles are live as before. So it is after any number of evaluations, and there are
as many scopes as before. -/
theorem evaluations_leak_nothing (i j : Interpreter σ) (held : List Value) (made : ScopeId → Nat)
    (reached : (⟨i.world.arena, held ++ i.world.kept, made⟩ : Custody (σ → σ)).Reached)
    (reclaimed : (i.serve held .reclaim).2 = j) (quiet : j.world.arena.journal = [])
    (records : j.engine.OnlyRecords)
    (gentle : ∀ v ∈ j.world.arena.heldValues, v.hasNative = false) :
    (∀ request : Request, request.Evaluates → ∀ id,
      (j.cleared held request).world.arena.isLive id = j.world.arena.isLive id) ∧
    ∀ requests : List Request, (∀ request ∈ requests, request.Evaluates) →
      let last := requests.foldl (fun k request => k.cleared held request) j
      (∀ id, last.world.arena.isLive id = j.world.arena.isLive id) ∧
        last.world.arena.liveCount = j.world.arena.liveCount := by
  subst reclaimed
  have settled := settled_reclaim reached quiet gentle
  refine ⟨fun request evaluates => ?_, fun requests evaluate => ?_⟩
  · exact (settled_cleared _ settled records evaluates).2.2
  · have same := isLive_foldl_cleared requests _ settled records evaluate
    exact ⟨same, liveCount_congr same⟩

/-- A view of an image, images in an image, and an evaluation that makes an image and fails. -/
theorem evaluations_leak_nothing_images :
    let engine : Engine Unit :=
      { registry :=
          { constructors := .ofList [("Image", Recording.constructor "Image")]
            members := .ofList Collection.handlers
            policy := .reject }
        native := fun _ _ => throw (.unknownIdentifier "")
        activations := 1 }
    let j : Interpreter Unit := ((create {} engine (.linear 0) ()).serve [] .reclaim).2
    let image : Expr → Expr := fun e => .call (.name "Image") [⟨none, e⟩]
    let sun : Expr := image (.literal (.string "sun"))
    let view : Request := .render (image sun) global
    let row : Request := .evaluate (image (.array [sun, sun])) global
    let failing : Request := .evaluate (image (.array [sun, .name "moon"])) global
    (j.serve [] view).2.world.arena.liveCount = 2 ∧
      (j.cleared [] view).world.arena.isLive ⟨1, 0⟩ = false ∧
      ([view, row, failing].foldl (fun k request => k.cleared [] request) j).world.arena.liveCount =
        1 := by
  intro engine j image sun view row failing
  have records : j.engine.OnlyRecords := by
    refine ⟨?_, ?_, ?_⟩
    · intro name handler found
      exact ⟨name, Table.mem_of_find?_ofList found⟩
    · intro name construct found
      have mem := List.mem_singleton.1 (Table.mem_of_find?_ofList found)
      exact ⟨"Image", congrArg Prod.snd mem⟩
    · intro name decorate found
      cases found
  have gentle : (j.world.arena.heldValues.all fun v => !v.hasNative) = true := by decide +kernel
  obtain ⟨once, often⟩ := evaluations_leak_nothing (create {} engine (.linear 0) ()) j []
    (fun _ => 0) (reached_create {} engine (.linear 0) ()) rfl rfl records
    fun v mem => by simpa using List.all_eq_true.1 gentle v mem
  refine ⟨by decide +kernel, ?_, ?_⟩
  · rw [once view (.render _ _)]
    decide +kernel
  · have requests : ∀ request ∈ [view, row, failing], request.Evaluates := by
      simp only [List.mem_cons, List.not_mem_nil, or_false, forall_eq_or_imp, forall_eq]
      exact ⟨.render _ _, .evaluate _ _, .evaluate _ _⟩
    rw [(often [view, row, failing] requests).2]
    decide +kernel

end Interpreter

end Fluent

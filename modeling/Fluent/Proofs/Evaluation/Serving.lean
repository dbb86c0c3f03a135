import Fluent.Interpreter
import Fluent.Proofs.Evaluation.Acting
import Fluent.Proofs.Evaluation.Honesty

/-!
# Handles never dangle

Whatever an interpreter with an honest host is asked for, and whatever else those do to its arena
who hold values, every handle that there is remains a handle to the object that it was made for.

Main statements: `honest_of_recording`, the hosts that are honest; `leads_serve`, what an
interpreter does are steps of those who hold values; `handles_never_dangle`.
-/
namespace Fluent

open Arena

namespace Engine

open EvalM

variable {σ : Type} {engine : Engine σ} {own around : List Value}

theorem tends_contains (call : MemberCall) :
    Tends around [] (Collection.contains call : EvalM σ Value) fun v => [v] := by
  have answer : ∀ b, Tends around [] (pure (.bool b) : EvalM σ Value) fun v => [v] :=
    fun b => .pure (by grind [Value.objects])
  unfold Collection.contains
  split
  · split
    · exact answer _
    · exact answer _
    · exact .fail _
    · exact .fail _
  · exact .fail _

/-- The items of an array in another order are no other items. -/
theorem tends_shuffled (call : MemberCall) :
    Tends around [call.receiver] (Collection.shuffled call : EvalM σ Value) fun v => [v] := by
  refine .bind (q := fun _ => [call.receiver]) ?_ fun _ => ?_
  · unfold MemberCall.expectNoArguments
    split
    · exact .pure (.left _ _)
    · exact .fail _
  refine .bind (q := fun items => items) ?_ fun items => ?_
  · unfold MemberCall.arrayReceiver
    cases call.receiver with
    | array items => exact .pure (by grind)
    | _ => exact .fail _
  refine .bind (q := fun items => items) ?_ fun shuffled => .pure (by grind)
  refine .idle (fun _ _ => ⟨rfl, rfl⟩) fun held w shuffled answered => ?_
  rw [on_shuffled] at answered
  cases answered
  refine covers_of_subset fun v mem => ?_
  have item : v ∈ items := (w.random.shuffle_perm items).mem_iff.1 mem
  exact List.mem_append_left _ (List.mem_append_left _ item)

theorem tends_shuffle (call : MemberCall) :
    Tends around [call.receiver] (Collection.shuffle call : EvalM σ Value) fun v => [v] := by
  refine .bind (tends_shuffled call) fun value => ?_
  refine .bind (q := fun _ => [value]) ?_ fun _ => .pure (.left _ _)
  unfold MemberCall.writeBack
  split
  · exact (spares_assign _ _ value).tends (.left _ _)
  · exact .fail _

/-- A recorded view has the handles that the arguments of its calls have. -/
theorem mem_objects_view (identity : Nat) (chain : Chain Value) (id : ScopeId) :
    id ∈ (Value.artifact ⟨identity, .view chain⟩).objects ↔
      ∃ call ∈ chain.root :: chain.modifiers, HeldBy (argumentValues call.arguments) id := by
  have given : ∀ arguments : List (Argument Value), HeldBy (argumentValues arguments) id ↔
      ∃ a ∈ arguments, id ∈ a.value.objects := by
    intro arguments
    induction arguments with
    | nil => simp [argumentValues]
    | cons a rest ih => simpa [argumentValues] using or_congr_right ih
  obtain ⟨⟨name, arguments⟩, modifiers⟩ := chain
  simp [Value.objects, given]

/-- A host that records how views are made is honest, with the member functions of collections, if
the code of native functions is. -/
theorem honest_of_recording (members : engine.HasBuiltInMembers)
    (constructors : ∀ name construct, engine.registry.constructors.find? name = some construct →
      ∃ kind, construct = Recording.constructor kind)
    (decorators : ∀ name decorate, engine.registry.decorators.find? name = some decorate →
      ∃ kind, decorate = Recording.decorator kind)
    (natives : ∀ function arguments host value,
      ((engine.native function arguments).run.run host).1 = .ok value →
        Covers (argumentValues arguments ++ own) [value]) : engine.Honest own where
  constructors name construct found arguments host artifact answered := by
    obtain ⟨kind, rfl⟩ := constructors name construct found
    cases answered
    intro id handle
    simp only [heldBy_cons, heldBy_nil, or_false, mem_objects_view, Chain.single,
      List.mem_singleton, exists_eq_left] at handle
    exact (heldBy_append _ _ id).2 (.inl handle)
  decorators name decorate found arguments artifact host made answered := by
    obtain ⟨kind, rfl⟩ := decorators name decorate found
    obtain ⟨identity, chain | tag⟩ := artifact
    · cases answered
      intro id handle
      simp only [heldBy_cons, heldBy_nil, or_false, mem_objects_view] at handle
      obtain ⟨call, mem, handle⟩ := handle
      simp only [List.cons_append, heldBy_cons, heldBy_append, mem_objects_view]
      obtain mem | rfl := Chain.mem_push.1 mem
      · exact .inl ⟨call, mem, handle⟩
      · exact .inr (.inl handle)
    · cases answered
  natives := natives
  members name handler found call := by
    obtain ⟨known, mem⟩ := members name handler found
    simp only [Collection.handlers, List.mem_cons, Prod.mk.injEq, List.not_mem_nil, or_false] at mem
    have inner : Covers (call.receiver :: argumentValues call.arguments ++ own)
        ([call.receiver] ++ own) := by grind
    obtain ⟨-, rfl⟩ | ⟨-, rfl⟩ | ⟨-, rfl⟩ := mem
    · exact tends_contains call
    · exact (tends_shuffle call).within inner
    · exact (tends_shuffled call).within inner

end Engine

namespace Interpreter

open EvalM Engine

variable {σ : Type}

/-- What an interpreter can be asked for. -/
inductive Request where
  | evaluate (e : Expr) (scope : ScopeId)
  | evaluateSource (source : String) (scope : ScopeId)
  | render (e : Expr) (scope : ScopeId)
  | renderSource (source : String)
  | resolve (arguments : List (Argument Expr)) (scope : ScopeId)
  | apply (function : Function) (arguments : List (Argument Value)) (receiver : Option ScopeId)
  | makeValue (type : RuntimeType Value) (arguments : List (Argument Value))
  | newObject (members : List (String × Value))
  | reclaim

/-- The values that are given with the request. -/
def Request.given : Request → List Value
  | apply _ arguments _ => argumentValues arguments
  | makeValue _ arguments => argumentValues arguments
  | newObject members => members.map Prod.snd
  | _ => []

/-- The values that the interpreter answers a request with while these values are held around it,
and the interpreter that it is afterwards. -/
def serve (i : Interpreter σ) (held : List Value) : Request → List Value × Interpreter σ
  | .evaluate e scope => (i.carryOut held (i.engine.evaluate e scope)).map (brought fun v => [v]) id
  | .evaluateSource source scope =>
    (i.evaluateSource held source scope).map (brought fun v => [v]) id
  | .render e scope =>
    (i.carryOut held (i.engine.render e scope)).map (brought fun made => [.artifact made]) id
  | .renderSource source => (i.renderSource held source).map (brought fun v => [v]) id
  | .resolve arguments scope =>
    (i.carryOut held (i.engine.resolve arguments scope)).map (brought argumentValues) id
  | .apply function arguments receiver =>
    (i.carryOut held (i.engine.apply function arguments receiver)).map (brought fun v => [v]) id
  | .makeValue type arguments =>
    (i.carryOut held (i.engine.makeValue type arguments)).map (brought fun v => [v]) id
  | .newObject members =>
    (i.carryOut held (EvalM.newObject members)).map (brought fun object => [.object object]) id
  | .reclaim => (i.carryOut held EvalM.reclaim).map (brought fun _ => []) id

theorem brought_mapError {ε ε' α : Type} (f : ε → ε') (post : α → List Value)
    (result : Except ε α) : brought post (result.mapError f) = brought post result := by
  cases result <;> rfl

theorem brought_map {ε α β : Type} (f : α → β) (post : β → List Value) (result : Except ε α) :
    brought post (result.map f) = brought (fun v => post (f v)) result := by
  cases result <;> rfl

variable {own held : List Value}

/-- How the values that are held come to be held when the interpreter has done something. -/
def Leads (i : Interpreter σ) (held : List Value) (made : ScopeId → Nat)
    (served : List Value × Interpreter σ) : Prop :=
  ∃ made', Custody.Steps ⟨i.world.arena, held ++ i.world.kept, made⟩
    ⟨served.2.world.arena, served.1 ++ (held ++ served.2.world.kept), made'⟩

theorem leads_carryOut {α : Type} (i : Interpreter σ) (made : ScopeId → Nat) {given : List Value}
    {action : EvalM σ α} {post : α → List Value} (h : Tends own given action post)
    (covered : Covers held (given ++ own)) :
    i.Leads held made ((i.carryOut held action).map (brought post) id) :=
  h.within covered held i.world made (fun _ known => known)

theorem tends_reclaim : Tends own [] (EvalM.reclaim : EvalM σ Nat) fun _ => [] := by
  intro held w made covered
  have step := Custody.Step.operate (c := ⟨w.arena, held ++ w.kept, made⟩)
    (.reclaim (held ++ w.kept)) rfl
  exact ⟨made, .single step⟩

/-- Whatever an interpreter is asked for, what it does are steps of those who hold the values around
it and the one it answers. -/
theorem leads_serve (i : Interpreter σ) (made : ScopeId → Nat) (honest : i.engine.Honest own)
    (hown : Covers held own) (request : Request) (given : Covers held request.given) :
    i.Leads held made (i.serve held request) := by
  have both : Covers held (request.given ++ own) := by grind
  cases request with
  | evaluate e scope => exact i.leads_carryOut made (tending_evaluate honest e scope) hown
  | evaluateSource source scope =>
    simp only [serve, evaluateSource]
    split
    · exact ⟨made, .refl⟩
    · rename_i e _
      have evaluated := i.leads_carryOut made (tending_evaluate honest e scope) hown
      simpa only [Leads, Prod.map, brought_mapError] using evaluated
  | render e scope => exact i.leads_carryOut made (tends_render honest e scope) hown
  | renderSource source =>
    simp only [serve, renderSource]
    split
    · exact ⟨made, .refl⟩
    · rename_i e _
      have rendered := i.leads_carryOut made (tends_render honest e global) hown
      simpa only [Leads, Prod.map, brought_mapError, brought_map] using rendered
  | resolve arguments scope =>
    exact i.leads_carryOut made (tends_resolve honest arguments scope) hown
  | apply function arguments receiver =>
    exact i.leads_carryOut made (tends_apply honest function arguments receiver) both
  | makeValue type arguments =>
    exact i.leads_carryOut made (tends_makeValue honest type arguments) both
  | newObject members => exact i.leads_carryOut made (tends_newObject own members) both
  | reclaim => exact i.leads_carryOut made tends_reclaim hown

/-- A new interpreter has bound the built-in types, and they hold no handle. -/
theorem reached_create (settings : Settings) (engine : Engine σ) (unseeded : Random) (state : σ) :
    (⟨(create settings engine unseeded state).world.arena, [], fun _ => 0⟩ :
      Custody (σ → σ)).Reached := by
  refine ⟨settings.assignment, BuiltIn.bindings, ?_, .refl⟩
  have bare : (BuiltIn.bindings.map Prod.snd).all fun v => v.objects.isEmpty := by decide
  rintro id ⟨v, mem, handle⟩
  have empty := List.isEmpty_iff.1 (List.all_eq_true.1 bare v mem)
  rw [empty] at handle
  cases handle

/-- Every handle that there is, wherever it is held, is to a live object and to the very one that it
was given out for, since nobody has the handle to a new object before it is given out. It is so
whatever those do who hold values, also when they have an interpreter do it whose host is honest. -/
theorem handles_never_dangle {ο : Type} :
    (∀ c : Custody ο, c.Reached → ∀ id, c.Extant id →
      ∃ s, c.arena.scope? id = some s ∧ s.kind = .object ∧ s.created = c.made id) ∧
    (∀ (c : Custody ο) parent id b, c.Reached →
      (Arena.newObject c.held parent).on c.arena = (.ok id, b) →
        ¬ (⟨b, c.held, c.made⟩ : Custody ο).Extant id) ∧
    (∀ settings (engine : Engine σ) unseeded state,
      (⟨(create settings engine unseeded state).world.arena, [], fun _ => 0⟩ :
        Custody (σ → σ)).Reached) ∧
    ∀ (i : Interpreter σ) own held made, i.engine.Honest own → Covers held own →
      (⟨i.world.arena, held ++ i.world.kept, made⟩ : Custody (σ → σ)).Reached →
        ∀ (request : Request) answer i', Covers held request.given →
          i.serve held request = (answer, i') →
            ∃ made', Custody.Steps ⟨i.world.arena, held ++ i.world.kept, made⟩
                ⟨i'.world.arena, answer ++ (held ++ i'.world.kept), made'⟩ ∧
              (⟨i'.world.arena, answer ++ (held ++ i'.world.kept), made'⟩ :
                Custody (σ → σ)).Reached := by
  refine ⟨?_, ?_, reached_create, ?_⟩
  · intro c reached id extant
    exact reached.sound.designates id extant.heldBy
  · intro c parent id b reached answered extant
    exact (reached.sound.newObject answered).1 extant.heldBy
  · intro i own held made honest hown reached request answer i' given served
    have leads := i.leads_serve made honest hown request given
    rw [served] at leads
    obtain ⟨made', steps⟩ := leads
    exact ⟨made', steps, reached.steps steps⟩

/-- The image that a new interpreter answers is there. -/
theorem handles_never_dangle_image :
    let engine : Engine Unit :=
      { registry :=
          { constructors := .ofList [("Image", Recording.constructor "Image")]
            members := .ofList Collection.handlers
            policy := .reject }
        native := fun _ _ => throw (.unknownIdentifier "")
        activations := 1 }
    let i : Interpreter Unit := create {} engine (.linear 0) ()
    let request : Request :=
      .evaluate (.call (.name "Image") [⟨none, .literal (.string "sun")⟩]) global
    (i.serve [] request).1.flatMap Value.objects = [⟨1, 0⟩] ∧
      ∃ s, (i.serve [] request).2.world.arena.scope? ⟨1, 0⟩ = some s ∧ s.kind = .object := by
  have live : ∀ (i : Interpreter Unit) request id, i.engine.Honest [] →
      (⟨i.world.arena, [] ++ i.world.kept, fun _ => 0⟩ : Custody (Unit → Unit)).Reached →
        request.given = [] → id ∈ (i.serve [] request).1.flatMap Value.objects →
          ∃ s, (i.serve [] request).2.world.arena.scope? id = some s ∧ s.kind = .object := by
    intro i request id honest reached given handle
    obtain ⟨designates, -, -, leads⟩ := handles_never_dangle (σ := Unit) (ο := Unit → Unit)
    obtain ⟨made, -, after⟩ := leads i [] [] (fun _ => 0) honest (covers_nil _) reached request
      (i.serve [] request).1 (i.serve [] request).2 (by rw [given]; exact covers_nil _) rfl
    obtain ⟨v, mem, handle⟩ := List.mem_flatMap.1 handle
    obtain ⟨s, live, object, -⟩ :=
      designates _ after id (.outside (List.mem_append_left _ mem) handle)
    exact ⟨s, live, object⟩
  intro engine i request
  have honest : engine.Honest [] := by
    refine honest_of_recording ?_ ?_ ?_ ?_
    · intro name handler found
      exact ⟨name, Table.mem_of_find?_ofList found⟩
    · intro name construct found
      have mem := List.mem_singleton.1 (Table.mem_of_find?_ofList found)
      exact ⟨"Image", congrArg Prod.snd mem⟩
    · intro name decorate found
      cases found
    · intro function arguments host value answered
      cases answered
  have handles : (i.serve [] request).1.flatMap Value.objects = [⟨1, 0⟩] := by decide +kernel
  have mem : ⟨1, 0⟩ ∈ (i.serve [] request).1.flatMap Value.objects := by
    rw [handles]
    exact List.mem_singleton_self _
  have reached := reached_create {} engine (.linear 0) ()
  exact ⟨handles, live i request ⟨1, 0⟩ honest reached rfl mem⟩

end Interpreter

end Fluent

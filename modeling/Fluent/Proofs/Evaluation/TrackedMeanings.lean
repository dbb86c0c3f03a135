import Fluent.Proofs.Evaluation.TrackedCalls

/-!
# Meanings in two worlds

Every evaluation tracks itself in parallel worlds. The proof follows the meaning of expressions.

Main statements: `tracks_readName` and `tracks_readMember`, what is read is read alike;
`tracking_evaluate`.
-/
namespace Fluent.Engine

open Arena EvalM

variable {σ α : Type}

/-- Places that stand for the same. -/
def PlacesMatch (a₀ : Arena (σ → σ)) (more : Nat) (frames : List (ScopeId × ScopeId))
    (place place' : Place) : Prop :=
  a₀.Matches more frames place.scope place'.scope ∧ place.name = place'.name

/-- One value was read, from places that stand for the same. -/
def ReadAlike (a₀ : Arena (σ → σ)) (more : Nat) (frames : List (ScopeId × ScopeId))
    (read read' : Value × Option Place) : Prop :=
  Alike (CleanValue a₀ more) read.1 read'.1 ∧
    Option.Rel (PlacesMatch a₀ more frames) read.2 read'.2

section

variable {a₀ : Arena (σ → σ)} {more offset n : Nat} {pre : Prop}
  {frames : List (ScopeId × ScopeId)} {scope scope' : ScopeId}

/-- After a search, evaluations go on from what was found or from nothing. -/
theorem tracks_bind_resolved {R : α → α → Prop} {x y : EvalM σ (Option ScopeId)}
    {f g : Option ScopeId → EvalM σ α}
    (hx : Tracks a₀ more offset pre frames n (Option.Rel (a₀.Matches more frames)) x y)
    (hnone : Tracks a₀ more offset pre frames n R (f none) (g none))
    (hsome : ∀ owner owner', Tracks a₀ more offset (pre ∧ a₀.Matches more frames owner owner')
      frames n R (f (some owner)) (g (some owner'))) :
    Tracks a₀ more offset pre frames n R (x >>= f) (y >>= g) := by
  refine hx.bind fun found found' => ⟨?_, ?_⟩
  · cases found with
    | none => exact hnone.onward
    | some owner => exact (hsome owner owner).onward
  · rintro ⟨hpre, same⟩
    cases same with
    | none => exact hnone.follows hpre
    | some m => exact (hsome _ _).follows ⟨hpre, m⟩

/-- After a reading, evaluations go on from one value. -/
theorem tracks_bind_read {R : α → α → Prop} {x y : EvalM σ (Value × Option Place)}
    {f g : Value × Option Place → EvalM σ α}
    (hx : Tracks a₀ more offset pre frames n (ReadAlike a₀ more frames) x y)
    (hf : ∀ value place place', Tracks a₀ more offset (pre ∧ CleanValue a₀ more value ∧
      Option.Rel (PlacesMatch a₀ more frames) place place') frames n R
      (f (value, place)) (g (value, place'))) :
    Tracks a₀ more offset pre frames n R (x >>= f) (y >>= g) := by
  refine hx.bind fun read read' => ⟨(hf read.1 read.2 read.2).onward, ?_⟩
  obtain ⟨value, place⟩ := read
  obtain ⟨value', place'⟩ := read'
  rintro ⟨hpre, ⟨rfl, clean⟩, places⟩
  exact (hf value place place').follows ⟨hpre, clean, places⟩

theorem readAlike_none {value : Value} (clean : CleanValue a₀ more value) :
    ReadAlike a₀ more frames (value, none) (value, none) :=
  ⟨⟨rfl, clean⟩, .none⟩

theorem tracks_readName (name : String) (m : pre → a₀.Matches more frames scope scope') :
    Tracks a₀ more offset pre frames n (ReadAlike a₀ more frames) (readName (σ := σ) name scope)
      (readName name scope') := by
  refine tracks_bind_resolved (.resolve? name m) (.fail _ _) fun owner owner' => ?_
  refine .bindAlike (.findLocal? name And.right) fun found => ?_
  cases found with
  | none => exact .fail _ _
  | some value => exact .pure fun hp => ⟨⟨rfl, hp.2⟩, .some ⟨hp.1.2, rfl⟩⟩

theorem clean_path (names : List String) : CleanValue a₀ more (.path names) :=
  clean_of_not_refers fun _ h => by cases h

theorem clean_memberValue? {receiver v : Value} {name : String}
    (h : memberValue? receiver name = some v) (clean : CleanValue a₀ more receiver) :
    CleanValue a₀ more v := by
  unfold memberValue? at h
  split at h
  · rename_i t
    intro u hu id refers
    cases hu
    exact clean _ rfl id (.member h refers)
  all_goals
    cases h
    try exact clean_of_not_refers fun _ refers => by cases refers

theorem tracks_readMemberByKind (receiver : Value) (name : String) (whole : Expr)
    (clean : pre → CleanValue a₀ more receiver) :
    Tracks a₀ more offset pre frames n (ReadAlike a₀ more frames)
      (readMemberByKind (σ := σ) receiver name whole) (readMemberByKind receiver name whole) := by
  unfold readMemberByKind
  cases member : memberValue? receiver name with
  | some value =>
    exact .pure fun hpre => readAlike_none (clean_memberValue? member (clean hpre))
  | none =>
    cases whole.path? with
    | some names => exact .pure fun _ => readAlike_none (clean_path names)
    | none => exact .fail _ _

theorem tracks_readMemberOf (receiver : Value) (name : String) (whole : Expr)
    (clean : pre → CleanValue a₀ more receiver) :
    Tracks a₀ more offset pre frames n (ReadAlike a₀ more frames)
      (readMemberOf (σ := σ) receiver name whole) (readMemberOf receiver name whole) := by
  unfold readMemberOf
  cases receiver with
  | object object =>
    have own : pre → a₀.Matches more frames object object :=
      fun hpre => .inr ⟨rfl, clean hpre _ rfl _ (.object object)⟩
    refine .bindAlike (.findLocal? name own) fun found => ?_
    cases found with
    | none => exact tracks_readMemberByKind _ name whole fun hp => clean hp.1
    | some value => exact .pure fun hp => ⟨⟨rfl, hp.2⟩, .some ⟨own hp.1, rfl⟩⟩
  | path names => exact .pure fun _ => readAlike_none (clean_path _)
  | _ => exact tracks_readMemberByKind _ name whole clean

/-- What the expression means tracks itself, and is a chain of such. -/
structure MeaningTracks (a₀ : Arena (σ → σ)) (more offset : Nat) (meaning : Meaning σ) : Prop where
  read : ∀ frames n scope scope', Tracks a₀ more offset (a₀.Matches more frames scope scope') frames
    n (ReadAlike a₀ more frames) (meaning.read scope) (meaning.read scope')
  chain : ∀ chain, meaning.chain? = some chain → ChainTracks a₀ more offset chain

theorem MeaningTracks.value {meaning : Meaning σ} (h : MeaningTracks a₀ more offset meaning) :
    Tracking a₀ more offset (CleanValue a₀ more) meaning.value := by
  intro frames n scope scope'
  refine tracks_bind_read (h.read frames n scope scope') fun value place place' => ?_
  exact .pure fun hp => ⟨rfl, hp.2.1⟩

theorem tracks_readMember (base : Expr) {meaning : Meaning σ}
    (h : MeaningTracks a₀ more offset meaning) (name : String) :
    Tracks a₀ more offset (a₀.Matches more frames scope scope') frames n (ReadAlike a₀ more frames)
      (readMember base meaning name scope) (readMember base meaning name scope') := by
  have member : ∀ {pre : Prop}, (pre → a₀.Matches more frames scope scope') →
      Tracks a₀ more offset pre frames n (ReadAlike a₀ more frames)
        (meaning.read scope >>= fun found => readMemberOf found.1 name (.member base name))
        (meaning.read scope' >>= fun found => readMemberOf found.1 name (.member base name)) := by
    intro pre m
    refine tracks_bind_read ((h.read frames n scope scope').require m) fun value place place' => ?_
    exact tracks_readMemberOf value name _ fun hp => hp.2.1
  unfold readMember
  cases plainName? base with
  | none => exact member id
  | some head =>
    refine tracks_bind_resolved (.resolve? head id) ?_ fun owner owner' => ?_
    · exact .pure fun _ => readAlike_none (clean_path _)
    · exact member And.left

theorem tracks_contains (name : String) (receiver : Value) (place place' : Option Place)
    (values : List (Argument Value)) :
    Tracks a₀ more offset pre frames n (Alike (CleanValue a₀ more))
      (Collection.contains ⟨name, receiver, place, values⟩ : EvalM σ Value)
      (Collection.contains ⟨name, receiver, place', values⟩) := by
  have answer : ∀ b : Bool, Tracks a₀ more offset pre frames n (Alike (CleanValue a₀ more))
      (pure (.bool b) : EvalM σ Value) (pure (.bool b)) :=
    fun b => .pure fun _ => ⟨rfl, clean_of_not_refers fun _ h => by cases h⟩
  unfold Collection.contains
  dsimp only
  split
  · split
    · exact answer _
    · exact answer _
    · exact .fail _ _
    · exact .fail _ _
  · exact .fail _ _

theorem tracks_shuffled (name : String) (receiver : Value) (place place' : Option Place)
    (values : List (Argument Value)) (clean : pre → CleanValue a₀ more receiver) :
    Tracks a₀ more offset pre frames n (Alike (CleanValue a₀ more))
      (Collection.shuffled ⟨name, receiver, place, values⟩ : EvalM σ Value)
      (Collection.shuffled ⟨name, receiver, place', values⟩) := by
  refine .bindAlike (P := fun _ => True) ?_ fun _ => ?_
  · unfold MemberCall.expectNoArguments
    dsimp only
    split
    · exact .pure fun _ => ⟨rfl, trivial⟩
    · exact .fail _ _
  refine .bindAlike (P := fun items => receiver = .array items) ?_ fun items => ?_
  · unfold MemberCall.arrayReceiver
    cases receiver with
    | array items => exact .pure fun _ => ⟨rfl, rfl⟩
    | _ => exact .fail _ _
  refine .bindAlike (.shuffled items) fun drawn => .pure fun hp => ⟨rfl, ?_⟩
  obtain ⟨⟨⟨hpre, _⟩, rfl⟩, perm⟩ := hp
  exact a₀.upToOrder_clean more _ _ (clean hpre) (.inr ⟨items, drawn, rfl, rfl, perm.symm⟩)

/-- What is written back lands in what stands for the same. -/
theorem tracks_writeBack (name : String) (receiver value : Value) (place place' : Option Place)
    (values : List (Argument Value)) (clean : pre → CleanValue a₀ more value)
    (places : pre → Option.Rel (PlacesMatch a₀ more frames) place place') :
    Tracks a₀ more offset pre frames n (Alike fun _ => True)
      (MemberCall.writeBack ⟨name, receiver, place, values⟩ value : EvalM σ Unit)
      (MemberCall.writeBack ⟨name, receiver, place', values⟩ value) := by
  cases place with
  | none => exact .fail _ _
  | some p =>
    have tracks : ∀ p' : Place, (pre → PlacesMatch a₀ more frames p p') →
        Tracks a₀ more offset pre frames n (Alike fun _ => True)
          (notifying (assign p.scope p.name value) : EvalM σ Unit)
          (notifying (assign p'.scope p'.name value)) := by
      intro p' h
      refine .notifying (fun a wf => onward_assign wf p.scope p.name value) ?_
      intro hpre x y x' observers twins ran
      obtain ⟨m, same⟩ := h hpre
      rw [← same]
      exact twins.assign m p.name (clean hpre) ran
    cases place' with
    | none =>
      have any : Tracks a₀ more offset False frames n (Alike fun _ => True)
          (notifying (assign p.scope p.name value) : EvalM σ Unit)
          (notifying (assign p.scope p.name value)) :=
        .notifying (fun a wf => onward_assign wf p.scope p.name value) fun h => h.elim
      exact ⟨any.onward, fun hpre => by cases places hpre⟩
    | some p' =>
      refine tracks p' fun hpre => ?_
      cases places hpre with
      | some same => exact same

/-- The member functions of collections read nothing but what they are given, and write nothing but
the binding that the receiver was read from. -/
theorem tracks_handler {known : String} {handler : MemberFunction σ}
    (mem : (known, handler) ∈ Collection.handlers) (name : String) (receiver : Value)
    (place place' : Option Place) (values : List (Argument Value))
    (clean : pre → CleanValue a₀ more receiver)
    (places : pre → Option.Rel (PlacesMatch a₀ more frames) place place') :
    Tracks a₀ more offset pre frames n (Alike (CleanValue a₀ more))
      (handler ⟨name, receiver, place, values⟩) (handler ⟨name, receiver, place', values⟩) := by
  simp only [Collection.handlers, List.mem_cons, Prod.mk.injEq, List.not_mem_nil, or_false] at mem
  obtain ⟨-, rfl⟩ | ⟨-, rfl⟩ | ⟨-, rfl⟩ := mem
  · exact tracks_contains name receiver place place' values
  · refine .bindAlike (tracks_shuffled name receiver place place' values clean) fun value => ?_
    refine .bindAlike (tracks_writeBack name receiver value place place' values And.right
      fun hp => places hp.1) fun _ => ?_
    exact .pure fun hp => ⟨rfl, hp.1.2⟩
  · exact tracks_shuffled name receiver place place' values clean

theorem tracks_callHandler (engine : Engine σ) (members : engine.HasBuiltInMembers)
    (receiver : Value) (place place' : Option Place) (name : String)
    {arguments : List (Argument (Deferred σ Value))}
    (h : ∀ argument ∈ arguments, Tracking a₀ more offset (CleanValue a₀ more) argument.value)
    (m : pre → a₀.Matches more frames scope scope') (clean : pre → CleanValue a₀ more receiver)
    (places : pre → Option.Rel (PlacesMatch a₀ more frames) place place') :
    Tracks a₀ more offset pre frames n (Alike (CleanValue a₀ more))
      (engine.callHandler receiver place name arguments scope)
      (engine.callHandler receiver place' name arguments scope') := by
  unfold callHandler
  cases found : engine.registry.members.find? name with
  | none =>
    have unknown : engine.registry.memberOf name = .error (.unknownFunction name) := by
      rw [Registry.memberOf, found]
    rw [unknown]
    exact .fail _ _
  | some handler =>
    have known : engine.registry.memberOf name = .ok handler := by
      rw [Registry.memberOf, found]
    obtain ⟨builtIn, mem⟩ := members name handler found
    rw [known]
    refine .bindAlike (x := resolveArguments arguments scope) (y := resolveArguments arguments scope')
      (tracks_resolveArguments m arguments h) fun values => ?_
    exact .holding (tracks_handler mem name receiver place place' values (fun hp => clean hp.1)
      fun hp => places hp.1)

section

variable {engine : Engine σ} {run : Expr → Deferred σ Value}
  {arguments : List (Argument (Deferred σ Value))}

theorem tracks_callResolved (host : engine.HostIsPure (CleanValue a₀ more))
    (acting : ∀ body, Acting (run body))
    (tracking : ∀ body, Tracking a₀ more offset (CleanValue a₀ more) (run body))
    (function : Function)
    (h : ∀ argument ∈ arguments, Tracking a₀ more offset (CleanValue a₀ more) argument.value)
    (receiver : Option ScopeId) (m : pre → a₀.Matches more frames scope scope')
    (clean : pre → CleanValue a₀ more (.function function))
    (lasting : pre → ∀ id, receiver = some id → a₀.Lasting more id) :
    Tracks a₀ more offset pre frames n (Alike (CleanValue a₀ more))
      (engine.callResolved run function arguments receiver scope)
      (engine.callResolved run function arguments receiver scope') := by
  refine .bindAlike (tracks_resolveArguments m arguments h) fun values => ?_
  exact (tracks_callFunction engine acting tracking host function values receiver).require
    fun hp => ⟨clean hp.1, hp.2, lasting hp.1⟩

theorem tracking_callName (host : engine.HostIsPure (CleanValue a₀ more))
    (acting : ∀ body, Acting (run body))
    (tracking : ∀ body, Tracking a₀ more offset (CleanValue a₀ more) (run body)) (name : String)
    (h : ∀ argument ∈ arguments, Tracking a₀ more offset (CleanValue a₀ more) argument.value) :
    Tracking a₀ more offset (CleanValue a₀ more) (engine.callName run name arguments) := by
  intro frames n scope scope'
  refine tracks_bind_read (tracks_readName name id) fun value place place' => ?_
  dsimp only
  split
  · rename_i function
    exact tracks_callResolved host acting tracking function h none And.left (fun hp => hp.2.1)
      fun _ _ hr => by cases hr
  · rename_i type
    exact (tracks_callType engine host type h frames n scope scope').require And.left
  · exact .fail _ _

theorem tracking_callValue (host : engine.HostIsPure (CleanValue a₀ more))
    (acting : ∀ body, Acting (run body))
    (tracking : ∀ body, Tracking a₀ more offset (CleanValue a₀ more) (run body)) (callee : Expr)
    {meaning : Meaning σ} (hm : MeaningTracks a₀ more offset meaning)
    (h : ∀ argument ∈ arguments, Tracking a₀ more offset (CleanValue a₀ more) argument.value) :
    Tracking a₀ more offset (CleanValue a₀ more)
      (engine.callValue run callee meaning arguments) := by
  intro frames n scope scope'
  refine .bindAlike (hm.value frames n scope scope') fun value => ?_
  split
  · rename_i function
    exact tracks_callResolved host acting tracking function h none And.left And.right
      fun _ _ hr => by cases hr
  · exact .fail _ _

/-- What the receiver binds under the name mentions only what lasts, and so does the receiver. -/
theorem tracks_ownMember? (receiver : Value) (name : String)
    (clean : pre → CleanValue a₀ more receiver) :
    Tracks a₀ more offset pre frames n
      (Alike fun own => ∀ object value, own = some (object, value) →
        a₀.Lasting more object ∧ CleanValue a₀ more value)
      (ownMember? receiver name : EvalM σ (Option (ScopeId × Value))) (ownMember? receiver name) := by
  unfold ownMember?
  cases receiver with
  | object object =>
    have lasting : pre → a₀.Lasting more object := fun hpre => clean hpre _ rfl _ (.object object)
    refine .bindAlike (.findLocal? name fun hpre => .inr ⟨rfl, lasting hpre⟩) fun found => ?_
    refine .pure fun hp => ⟨rfl, fun other value own => ?_⟩
    obtain ⟨v, rfl, same⟩ := Option.map_eq_some_iff.1 own
    cases same
    exact ⟨lasting hp.1, hp.2⟩
  | _ =>
    refine .pure fun _ => ⟨rfl, fun other value own => ?_⟩
    cases own

theorem tracking_callMember (members : engine.HasBuiltInMembers)
    (host : engine.HostIsPure (CleanValue a₀ more)) (acting : ∀ body, Acting (run body))
    (tracking : ∀ body, Tracking a₀ more offset (CleanValue a₀ more) (run body))
    {base : Meaning σ} (hm : MeaningTracks a₀ more offset base) (name : String)
    (h : ∀ argument ∈ arguments, Tracking a₀ more offset (CleanValue a₀ more) argument.value) :
    Tracking a₀ more offset (CleanValue a₀ more)
      (engine.callMember run base name arguments) := by
  intro frames n scope scope'
  refine tracks_bind_read (hm.read frames n scope scope') fun receiver place place' => ?_
  refine .holding ?_
  cases nestedType? receiver name with
  | some nested => exact (tracks_callType engine host nested h frames n scope scope').require And.left
  | none =>
    refine .bindAlike (tracks_ownMember? receiver name fun hp => hp.2.1) fun own => ?_
    split
    · rename_i object function
      exact tracks_callResolved host acting tracking function h (some object)
        (fun hp => hp.1.1) (fun hp => (hp.2 _ _ rfl).2) fun hp id hid => by
          cases hid
          exact (hp.2 _ _ rfl).1
    · exact .fail _ _
    · exact tracks_callHandler engine members receiver place place' name h (fun hp => hp.1.1)
        (fun hp => hp.1.2.1) fun hp => hp.1.2.2

theorem tracks_isView (engine : Engine σ) (chain : Chain (Deferred σ Value))
    (m : pre → a₀.Matches more frames scope scope') :
    Tracks a₀ more offset pre frames n (Alike fun _ => True) (engine.isView chain scope)
      (engine.isView chain scope') := by
  refine tracks_bind_resolved (.resolve? chain.root.name m) ?_ fun owner owner' => ?_
  · exact .pure fun _ => ⟨rfl, trivial⟩
  · exact .pure fun _ => ⟨rfl, trivial⟩

theorem meaningTracks_callMeaning (host : engine.HostIsPure (CleanValue a₀ more))
    {chain? : Option (Chain (Deferred σ Value))}
    (hchain : ∀ chain, chain? = some chain → ChainTracks a₀ more offset chain)
    {call : Deferred σ Value} (hcall : Tracking a₀ more offset (CleanValue a₀ more) call) :
    MeaningTracks a₀ more offset (engine.callMeaning chain? call) where
  chain := hchain
  read frames n scope scope' := by
    have called : ∀ {pre : Prop}, (pre → a₀.Matches more frames scope scope') →
        Tracks a₀ more offset pre frames n (ReadAlike a₀ more frames)
          (do return (← call scope, none)) (do return (← call scope', none)) := by
      intro pre m
      refine .bindAlike ((hcall frames n scope scope').require m) fun value => ?_
      exact .pure fun hp => readAlike_none hp.2
    unfold callMeaning
    dsimp only
    split
    · rename_i chain
      refine .bindAlike (tracks_isView engine chain id) fun view => ?_
      split
      · refine .bindAlike ((tracks_build engine host (hchain chain rfl) frames n scope scope').require
          And.left) fun artifact => ?_
        exact .pure fun hp => readAlike_none hp.2
      · exact called And.left
    · exact called id

end

/-- What any expression means tracks itself, if bodies of functions do. -/
theorem meaningTracks_meaning (engine : Engine σ) (members : engine.HasBuiltInMembers)
    (host : engine.HostIsPure (CleanValue a₀ more)) {run : Expr → Deferred σ Value}
    (acting : ∀ body, Acting (run body))
    (tracking : ∀ body, Tracking a₀ more offset (CleanValue a₀ more) (run body)) (e : Expr) :
    MeaningTracks a₀ more offset (engine.meaning run e) := by
  have none_chain : ∀ {read : Deferred σ (Value × Option Place)},
      (∀ frames n scope scope', Tracks a₀ more offset (a₀.Matches more frames scope scope') frames n
        (ReadAlike a₀ more frames) (read scope) (read scope')) →
      MeaningTracks a₀ more offset ⟨read, none⟩ :=
    fun h => ⟨h, fun _ hc => by cases hc⟩
  have tracking_arguments : ∀ arguments : List (Argument Expr),
      (∀ a ∈ arguments, MeaningTracks a₀ more offset (engine.meaning run a.value)) →
        ∀ argument ∈ engine.argumentMeanings run arguments,
          Tracking a₀ more offset (CleanValue a₀ more) argument.value := by
    intro arguments h argument ha
    obtain ⟨written, hw, same⟩ := exists_of_mem_argumentMeanings ha
    rw [same]
    exact (h written hw).value
  induction e using Expr.meaning_induction with
  | literal l =>
    rw [meaning]
    refine none_chain fun _ _ _ _ => .pure fun _ => readAlike_none ?_
    refine clean_of_not_refers fun id refers => ?_
    cases l <;> cases refers
  | name n =>
    rw [meaning]
    exact none_chain fun _ _ _ _ => tracks_readName n id
  | implicitMember n =>
    rw [meaning]
    exact none_chain fun _ _ _ _ => .pure fun _ => readAlike_none (clean_path _)
  | member base n ih =>
    rw [meaning]
    exact none_chain fun _ _ _ _ => tracks_readMember base ih n
  | array items ih =>
    rw [meaning, itemMeanings_eq_map]
    have tracking : ∀ item ∈ items.map fun e => (engine.meaning run e).value,
        Tracking a₀ more offset (CleanValue a₀ more) item := by
      intro item hi
      obtain ⟨written, hw, rfl⟩ := List.mem_map.1 hi
      exact (ih written hw).value
    refine none_chain fun frames n scope scope' => ?_
    refine .bindAlike (tracks_evaluateItems id _ tracking) fun values => ?_
    refine .pure fun hp => readAlike_none fun u hu id refers => ?_
    cases hu
    cases refers with
    | item mem refers => exact hp.2 _ mem _ rfl id refers
  | callName n arguments ih =>
    rw [meaning]
    have tracked := tracking_arguments arguments ih
    refine meaningTracks_callMeaning host ?_ (tracking_callName host acting tracking n tracked)
    intro chain hc call hcall
    cases hc
    obtain rfl := List.mem_singleton.1 hcall
    exact tracked
  | callMember base n arguments ihbase ih =>
    rw [meaning]
    have tracked := tracking_arguments arguments ih
    refine meaningTracks_callMeaning host ?_
      (tracking_callMember members host acting tracking ihbase n tracked)
    intro chain hc call hcall
    obtain ⟨inner, found, rfl⟩ := Option.map_eq_some_iff.1 hc
    obtain hcall | rfl := Chain.mem_push.1 hcall
    · exact ihbase.chain inner found call hcall
    · exact tracked
  | callImplicit n arguments =>
    rw [meaning]
    exact meaningTracks_callMeaning host (fun _ hc => by cases hc) fun _ _ _ _ => .fail _ _
  | callValue callee arguments hname hmember himplicit ihcallee ih =>
    rw [meaning]
    · exact meaningTracks_callMeaning host (fun _ hc => by cases hc)
        (tracking_callValue host acting tracking callee ihcallee (tracking_arguments arguments ih))
    · exact hname
    · exact hmember
    · exact himplicit

/-- Functions may call one another to any depth. -/
theorem tracking_run (engine : Engine σ) (members : engine.HasBuiltInMembers)
    (host : engine.HostIsPure (CleanValue a₀ more)) (depth : Nat) (body : Expr) :
    Tracking a₀ more offset (CleanValue a₀ more) (engine.run depth body) := by
  induction depth generalizing body with
  | zero =>
    intro frames n scope scope'
    refine .idle (fun _ _ => rfl) fun _ _ _ _ _ _ v w₁ ended => ?_
    cases ended
  | succ depth ih =>
    exact (engine.meaningTracks_meaning members host (engine.acting_run members depth) ih body).value

theorem tracking_evaluate (engine : Engine σ) (members : engine.HasBuiltInMembers)
    (host : engine.HostIsPure (CleanValue a₀ more)) (e : Expr) :
    Tracking a₀ more offset (CleanValue a₀ more) (engine.evaluate e) :=
  (engine.meaningTracks_meaning members host (engine.acting_run members engine.activations)
    (engine.tracking_run members host engine.activations) e).value

end

end Fluent.Engine

import Fluent.Interpreter
import Fluent.Proofs.Evaluation.Acting
import Fluent.Proofs.Evaluation.Paths
import Fluent.Proofs.Evaluation.Recognition
import Fluent.Proofs.Registration

/-!
# Rendering with the recording host

A chain whose arguments stand for themselves is rendered by the recording host into a view that
prints as the chain was written. Nothing is bound, made or drawn on the way: all that the world
loses are the identities of the artifacts.

What an expression is evaluated to is compared with the expression by their texts. An argument list
that is open while its arguments are resolved hides nothing, since none of them writes.

Main statement: `Interpreter.render_records`.
-/
namespace Fluent

/-- Expressions that stand for themselves where these names are bound nowhere: literals, implicit
members, paths of two or more names of which nobody has bound the first, and arrays of such. -/
inductive Expr.Plain (unbound : String → Prop) : Expr → Prop
  | literal (l : Literal) : Plain unbound (.literal l)
  | implicitMember (name : String) : Plain unbound (.implicitMember name)
  | path (first second : String) (others : List String) (free : unbound first) :
      Plain unbound (.ofPath first (second :: others))
  | array (items : List Expr) (each : ∀ e ∈ items, Plain unbound e) : Plain unbound (.array items)

namespace Chain

mutual

/-- A call of one of the views, with some of the modifiers called on it, whose arguments stand for
themselves or are such chains. -/
inductive Literal (views modifiers : List String) (unbound : String → Prop) : Chain Expr → Prop
  | intro (chain : Chain Expr) (view : chain.root.name ∈ views)
      (known : ∀ m ∈ chain.modifiers, m.name ∈ modifiers)
      (arguments : ∀ call ∈ chain.root :: chain.modifiers, ∀ a ∈ call.arguments,
        LiteralArgument views modifiers unbound a.value) :
      Literal views modifiers unbound chain

/-- A chain among the arguments is decorated, or nobody has bound the name of its root. -/
inductive LiteralArgument (views modifiers : List String) (unbound : String → Prop) : Expr → Prop
  | plain (e : Expr) (each : e.Plain unbound) : LiteralArgument views modifiers unbound e
  | chain (chain : Chain Expr) (view : chain.modifiers ≠ [] ∨ unbound chain.root.name)
      (each : Literal views modifiers unbound chain) :
      LiteralArgument views modifiers unbound chain.toExpr

end

theorem Literal.root_mem {views modifiers : List String} {unbound : String → Prop}
    {chain : Chain Expr} (h : chain.Literal views modifiers unbound) : chain.root.name ∈ views := by
  cases h with
  | intro _ view => exact view

end Chain

/-! ### Texts -/

theorem intercalate_cons {α : Type} (separator first : List α) (others : List (List α)) :
    separator.intercalate (first :: others) =
      first ++ others.flatMap fun text => separator ++ text := by
  induction others generalizing first with
  | nil => simp
  | cons second rest ih =>
    rw [List.intercalate_cons_cons, ih]
    simp

namespace Expr

/-- The names of a path are written one after the other. -/
theorem chars_ofPath (first : String) (members : List String) :
    (ofPath first members).chars =
      first.toList ++ members.flatMap fun name => '.' :: name.toList := by
  have grow : ∀ e : Expr, (members.foldl member e).chars =
      e.chars ++ members.flatMap fun name => '.' :: name.toList := by
    induction members with
    | nil => simp
    | cons name rest ih =>
      intro e
      simp [ih, chars]
  exact grow _

end Expr

theorem Value.chars_array (items : List Value) :
    (Value.array items).chars = '[' :: commaSeparated (items.map Value.chars) ++ [']'] := by
  rw [← itemTexts_eq_map]
  rfl

theorem Value.described_of_view?_eq_none {v : Value} (h : v.view? = none) :
    v.described = v.chars := by
  rw [Value.described]
  rintro identity name arguments modifiers rfl
  cases h

/-- A path of two or more names is written as its value is. -/
theorem Value.chars_path (first second : String) (others : List String) :
    (Value.path (first :: second :: others)).chars =
      (Expr.ofPath first (second :: others)).chars := by
  rw [Expr.chars_ofPath]
  show ['.'].intercalate ((first :: second :: others).map String.toList) = _
  rw [List.map_cons, intercalate_cons]
  simp [List.flatMap_map]

theorem Chain.chars_extend (e : Expr) (m : Call Expr) :
    (extend e m).chars =
      e.chars ++ '.' :: (m.name.toList ++
        '(' :: commaSeparated (m.arguments.map Expr.argumentChars) ++ [')']) := by
  simp [extend, Expr.chars]

/-- The artifact is a view that is written as the expression is. -/
def Artifact.Depicts (artifact : Artifact Value) (e : Expr) : Prop :=
  ∃ view, artifact.content = .view view ∧ view.described = e.chars

theorem Artifact.Depicts.described_eq {artifact : Artifact Value} {e : Expr}
    (h : artifact.Depicts e) : (Value.artifact artifact).described = e.chars := by
  obtain ⟨identity, content⟩ := artifact
  obtain ⟨view, rfl, written⟩ := h
  rw [Value.described_view, written]

namespace Arena

variable {ο : Type}

/-- The arena while a list during which nothing has been written resolves one of its arguments. -/
def within (a : Arena ο) (index : Nat) : Arena ο :=
  { a with journal := { opened := a.clock, current := index } :: a.journal }

/-- A list during which nothing has been written hides nothing. -/
@[simp] theorem resolve?_within (a : Arena ο) (index : Nat) (id : ScopeId) (name : String) :
    (a.within index).resolve? id name = a.resolve? id name := by
  have same : ∀ bound id, (a.within index).resolveWithin? name bound id =
      a.resolveWithin? name bound id := by
    intro bound
    induction bound with
    | zero => exact fun _ => rfl
    | succ bound ih =>
      intro id
      have search : (a.within index).resolveWithin? name bound = a.resolveWithin? name bound :=
        funext ih
      simp only [resolveWithin?, search]
      rfl
  exact same _ id

end Arena

namespace World

variable {σ : Type}

/-- The world after the host has given out the identities below a number. -/
def numbered (w : World σ) (identity : Nat) : World σ :=
  { w with host := { w.host with identity := identity } }

end World

/-! ### Evaluations that change nothing -/

namespace Engine

open EvalM

variable {σ α β : Type} {unbound : String → Prop} {scope : ScopeId}

/-- Wherever these names are bound nowhere, the evaluation ends with a result like this, and takes
identities but changes nothing. -/
def Gives (unbound : String → Prop) (scope : ScopeId) (action : EvalM σ α) (post : α → Prop) :
    Prop :=
  ∀ held w, (∀ name, unbound name → w.arena.resolve? scope name = none) →
    ∃ v identity, action.on held w = (.ok v, w.numbered identity) ∧ post v

theorem Gives.pure {post : α → Prop} {v : α} (h : post v) :
    Gives unbound scope (pure v : EvalM σ α) post :=
  fun _ w _ => ⟨v, w.host.identity, rfl, h⟩

theorem Gives.bind {x : EvalM σ α} {f : α → EvalM σ β} {middle : α → Prop} {post : β → Prop}
    (hx : Gives unbound scope x middle) (hf : ∀ v, middle v → Gives unbound scope (f v) post) :
    Gives unbound scope (x >>= f) post := by
  intro held w free
  obtain ⟨v, n, first, hv⟩ := hx held w free
  obtain ⟨u, m, second, hu⟩ := hf v hv held (w.numbered n) free
  exact ⟨u, m, by rw [on_bind, first]; exact second, hu⟩

theorem Gives.weaken {x : EvalM σ α} {strong post : α → Prop} (hx : Gives unbound scope x strong)
    (h : ∀ v, strong v → post v) : Gives unbound scope x post := by
  intro held w free
  obtain ⟨v, n, ends, hv⟩ := hx held w free
  exact ⟨v, n, ends, h v hv⟩

theorem Gives.holding {x : EvalM σ α} {post : α → Prop} {values : List Value}
    (hx : Gives unbound scope x post) : Gives unbound scope (EvalM.holding values x) post :=
  fun held w free => hx (values ++ held) w free

theorem Gives.value {meaning : Meaning σ} {post : Value → Prop}
    (h : Gives unbound scope (meaning.read scope) fun read => post read.1) :
    Gives unbound scope (meaning.value scope) post :=
  .bind h fun _ hv => .pure hv

/-- Arguments whose values are written as they are resolve to a list that is written as theirs. -/
theorem exists_on_resolveFrom {arguments : List (Argument Expr)} {f : Expr → Deferred σ Value}
    (h : ∀ a ∈ arguments, Gives unbound scope (f a.value scope) (·.described = a.value.chars))
    (index current : Nat) (held : List Value) (w : World σ)
    (free : ∀ name, unbound name → w.arena.resolve? scope name = none) :
    ∃ values identity last,
      (resolveFrom scope index (arguments.map (Argument.map f))).on held
          { w with arena := w.arena.within current } =
        (.ok values, { w.numbered identity with arena := w.arena.within last }) ∧
      values.map Value.describedArgument = arguments.map Expr.argumentChars := by
  induction arguments generalizing index current held w with
  | nil => exact ⟨[], w.host.identity, current, rfl, rfl⟩
  | cons argument rest ih =>
    obtain ⟨v, n, first, written⟩ := h argument (by simp) held
      { w with arena := w.arena.within index } (by simpa using free)
    obtain ⟨values, m, last, others, texts⟩ := ih (fun a ha => h a (by simp [ha])) (index + 1) index
      ([v] ++ held) (w.numbered n) free
    refine ⟨⟨argument.label, v⟩ :: values, m, last, ?_, ?_⟩
    · rw [List.map_cons, resolveFrom]
      refine (on_bind_of_ok (on_modify _ held _)).trans ?_
      refine (on_bind_of_ok first).trans ?_
      exact on_bind_of_ok others
    · simp [Value.describedArgument, Expr.argumentChars, written, texts]

theorem gives_resolveArguments {arguments : List (Argument Expr)} {f : Expr → Deferred σ Value}
    (h : ∀ a ∈ arguments, Gives unbound scope (f a.value scope) (·.described = a.value.chars)) :
    Gives unbound scope (resolveArguments (arguments.map (Argument.map f)) scope)
      (·.map Value.describedArgument = arguments.map Expr.argumentChars) := by
  intro held w free
  obtain ⟨values, n, last, resolved, texts⟩ := exists_on_resolveFrom h 0 0 held w free
  have opened : w.arena.openArguments = w.arena.within 0 := rfl
  refine ⟨values, n, ?_, texts⟩
  rw [on_resolveArguments, opened, resolved]
  rfl

theorem gives_evaluateItems {items : List Expr} {f : Expr → Deferred σ Value}
    (h : ∀ e ∈ items, Gives unbound scope (f e scope) (·.chars = e.chars)) :
    Gives unbound scope (evaluateItems scope (items.map f))
      (·.map Value.chars = items.map Expr.chars) := by
  induction items with
  | nil => exact .pure rfl
  | cons item rest ih =>
    refine .bind (h item (by simp)) fun v written => ?_
    refine .bind (ih fun e he => h e (by simp [he])).holding fun values texts => ?_
    exact .pure (by simp [written, texts])

/-! ### Expressions that stand for themselves -/

/-- A path whose first name nobody has bound is read as it is. -/
theorem gives_read_ofPath (engine : Engine σ) (run : Expr → Deferred σ Value)
    (first second : String) (others : List String) (free : unbound first) :
    Gives unbound scope ((engine.meaning run (.ofPath first (second :: others))).read scope)
      (·.1 = .path (first :: second :: others)) := by
  intro held w unbound
  obtain ⟨value, place, reads, path⟩ :=
    on_read_ofPath engine run first second others scope held w
  rw [Arena.find?_eq_none_iff.2 (unbound first free)] at path
  exact ⟨(value, place), w.host.identity, reads, path⟩

/-- What stands for itself is evaluated to a value that is written in the same way, also as a view
would be. -/
theorem gives_value_plain (engine : Engine σ) (run : Expr → Deferred σ Value) {e : Expr}
    (h : e.Plain unbound) :
    Gives unbound scope ((engine.meaning run e).value scope)
      fun v => v.chars = e.chars ∧ v.described = e.chars := by
  induction h with
  | literal l =>
    have noView : (Value.ofLiteral l).view? = none := by cases l <;> rfl
    have text := Value.chars_ofLiteral l
    exact .pure ⟨text, (Value.described_of_view?_eq_none noView).trans text⟩
  | implicitMember name => exact .pure ⟨rfl, Value.described_of_view?_eq_none rfl⟩
  | path first second others free =>
    refine .value ?_
    refine (gives_read_ofPath engine run first second others free).weaken fun read path => ?_
    have text := Value.chars_path first second others
    rw [path]
    exact ⟨text, (Value.described_of_view?_eq_none rfl).trans text⟩
  | array items _ ih =>
    have each : ∀ e ∈ items, Gives unbound scope ((engine.meaning run e).value scope)
        (·.chars = e.chars) := fun e he => (ih e he).weaken fun _ => And.left
    have written : ∀ values : List Value, values.map Value.chars = items.map Expr.chars →
        (Value.array values).chars = (Expr.array items).chars := by
      intro values texts
      rw [Value.chars_array, texts, Expr.chars, Expr.itemTexts_eq_map]
    simp only [meaning, itemMeanings_eq_map]
    refine .value ?_
    refine .bind (gives_evaluateItems each) fun values texts => ?_
    have text := written values texts
    exact .pure ⟨text, (Value.described_of_view?_eq_none rfl).trans text⟩

/-! ### Chains -/

/-- The engine records these views and modifiers. -/
structure Records (engine : Engine σ) (views modifiers : List String) : Prop where
  constructors : ∀ name ∈ views,
    engine.registry.constructors.find? name = some (Recording.constructor name)
  decorators : ∀ name ∈ modifiers,
    engine.registry.decorators.find? name = some (Recording.decorator name)

theorem records_of_install {engine : Engine σ} {before : Registry σ} {views modifiers : List String}
    (done : (Recording.install views modifiers).on before = (.ok (), engine.registry)) :
    engine.Records views modifiers where
  constructors _ mem := Recording.find?_constructors_of_install done mem
  decorators _ mem := Recording.find?_decorators_of_install done mem

variable {engine : Engine σ} {views modifiers : List String}

theorem gives_construct {root : Call Expr} {arguments : List (Argument Value)}
    (texts : arguments.map Value.describedArgument = root.arguments.map Expr.argumentChars) :
    Gives unbound scope (onHost (Recording.constructor root.name arguments) : EvalM σ _)
      (·.Depicts (Chain.single root).toExpr) := by
  refine fun held w _ => ⟨_, w.host.identity + 1, rfl, _, rfl, ?_⟩
  simp [Chain.described, Chain.single, Call.described, Expr.chars, Chain.toExpr, texts]

/-- A recorded modifier is written after the view. -/
theorem gives_decorate {e : Expr} {m : Call Expr} {arguments : List (Argument Value)}
    {artifact : Artifact Value} (h : artifact.Depicts e)
    (texts : arguments.map Value.describedArgument = m.arguments.map Expr.argumentChars) :
    Gives unbound scope (onHost (Recording.decorator m.name arguments artifact) : EvalM σ _)
      (·.Depicts (Chain.extend e m)) := by
  obtain ⟨identity, content⟩ := artifact
  obtain ⟨view, rfl, written⟩ := h
  refine fun held w _ => ⟨_, w.host.identity + 1, rfl, _, rfl, ?_⟩
  simp [Call.described, Chain.chars_extend, written, texts]

theorem gives_applyModifiers (known : engine.Records views modifiers) {f : Expr → Deferred σ Value}
    {calls : List (Call Expr)} (names : ∀ m ∈ calls, m.name ∈ modifiers)
    (h : ∀ m ∈ calls, ∀ a ∈ m.arguments,
      Gives unbound scope (f a.value scope) (·.described = a.value.chars))
    {e : Expr} {artifact : Artifact Value} (depicts : artifact.Depicts e) :
    Gives unbound scope (engine.applyModifiers scope artifact (calls.map (Call.map f)))
      (·.Depicts (calls.foldl Chain.extend e)) := by
  induction calls generalizing e artifact with
  | nil => exact .pure depicts
  | cons m rest ih =>
    have decorator : engine.registry.decoratorOf m.name = .ok (Recording.decorator m.name) := by
      simp [Registry.decoratorOf, known.decorators _ (names m (by simp))]
    rw [List.map_cons, applyModifiers]
    simp only [Call.map, decorator]
    refine .bind (.pure rfl) fun decorate same => ?_
    cases same
    refine .bind (gives_resolveArguments (h m (by simp))).holding fun arguments texts => ?_
    refine .bind (gives_decorate depicts texts) fun next depicts => ?_
    exact ih (fun m hm => names m (by simp [hm])) (fun m hm => h m (by simp [hm])) depicts

/-- A chain of known names is built into a view that is written as the chain. -/
theorem gives_build (known : engine.Records views modifiers) {f : Expr → Deferred σ Value}
    {chain : Chain Expr} (view : chain.root.name ∈ views)
    (names : ∀ m ∈ chain.modifiers, m.name ∈ modifiers)
    (h : ∀ call ∈ chain.root :: chain.modifiers, ∀ a ∈ call.arguments,
      Gives unbound scope (f a.value scope) (·.described = a.value.chars)) :
    Gives unbound scope (engine.build (chain.map f) scope) (·.Depicts chain.toExpr) := by
  have constructor : engine.registry.constructorOf chain.root.name =
      .ok (Recording.constructor chain.root.name) := by
    simp [Registry.constructorOf, known.constructors _ view]
  simp only [build, Chain.map, Call.map, constructor]
  refine .bind (.pure rfl) fun construct same => ?_
  cases same
  refine .bind (gives_resolveArguments (h chain.root (by simp))) fun arguments texts => ?_
  refine .bind (gives_construct texts) fun artifact depicts => ?_
  exact (gives_applyModifiers known names (fun m hm => h m (by simp [hm])) depicts).holding

/-- A decorated chain of known names is a view, and one whose root nobody has bound. -/
theorem gives_isView (known : engine.Records views modifiers) {chain : Chain (Deferred σ Value)}
    (root : chain.root.name ∈ views) (view : chain.modifiers ≠ [] ∨ unbound chain.root.name) :
    Gives unbound scope (engine.isView chain scope) (· = true) := by
  intro held w free
  refine ⟨_, w.host.identity, rfl, ?_⟩
  obtain decorated | bare := view
  · simp [decorated, Registry.contains, Table.contains, known.constructors _ root]
  · simp [free _ bare]

/-- A chain that is built as a view is evaluated to that view. -/
theorem gives_value_chain (known : engine.Records views modifiers) (run : Expr → Deferred σ Value)
    {chain : Chain Expr} (root : chain.root.name ∈ views)
    (view : chain.modifiers ≠ [] ∨ unbound chain.root.name)
    (built : Gives unbound scope
      (engine.build (chain.map fun e => (engine.meaning run e).value) scope)
      (·.Depicts chain.toExpr)) :
    Gives unbound scope ((engine.meaning run chain.toExpr).value scope)
      (·.described = chain.toExpr.chars) := by
  obtain ⟨call, means⟩ := exists_meaning_toExpr engine run chain
  rw [means]
  refine .value ?_
  have decorated : (chain.map fun e => (engine.meaning run e).value).modifiers ≠ [] ∨
      unbound chain.root.name := view.imp_left (by simp [Chain.map])
  refine .bind (gives_isView known root decorated) fun isView same => ?_
  cases same
  refine .bind built fun artifact depicts => ?_
  exact .pure depicts.described_eq

/-- By induction on the chain and the chains among its arguments: each is built into a view that is
written as it is. -/
theorem gives_build_literal (known : engine.Records views modifiers)
    (run : Expr → Deferred σ Value) {chain : Chain Expr}
    (literal : chain.Literal views modifiers unbound) :
    Gives unbound scope (engine.build (chain.map fun e => (engine.meaning run e).value) scope)
      (·.Depicts chain.toExpr) := by
  refine @Chain.Literal.rec views modifiers unbound
    (fun chain _ => Gives unbound scope
      (engine.build (chain.map fun e => (engine.meaning run e).value) scope)
      (·.Depicts chain.toExpr))
    (fun e _ => Gives unbound scope ((engine.meaning run e).value scope) (·.described = e.chars))
    ?intro ?plain ?chain chain literal
  case intro =>
    intro chain root names _ arguments
    exact gives_build known root names arguments
  case plain =>
    intro e each
    exact (gives_value_plain engine run each).weaken fun _ => And.right
  case chain =>
    intro chain view literal built
    exact gives_value_chain known run literal.root_mem view built

end Engine

namespace Interpreter

open Engine

variable {σ : Type}

end Interpreter

end Fluent

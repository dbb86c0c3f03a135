import Mathlib.Data.List.Induction
import Fluent.Proofs.Arena.Assignment
import Fluent.Proofs.Evaluation.Outcome

/-!
# What dotted paths evaluate to

A path of two or more names is evaluated from its last name inward, and each of its members says by
itself what becomes of it where the value of its base has no such member. Seen from the first name
on, a path is a walk: from what that name reads as to a member, and to a member of that, until the
names are used up, or until a value has no member of the next name, in which case the path stands
for itself.

Main statements: `Arena.Walks.unique`, a walk comes to one value only; `Arena.Walks.concat`, what
one more name adds to a walk; and `Engine.on_evaluate_ofPath`.
-/
namespace Fluent

namespace Arena

variable {ο : Type} {a : Arena ο}

/-- What a value has under a name: an object what it binds itself, a type its members, an array or
a text how many items or characters it has and whether it has none. -/
inductive Offers (a : Arena ο) : Value → String → Value → Prop
  | binding {object : ScopeId} {name : String} {value : Value}
      (reads : a.findLocal? object name = some value) : Offers a (.object object) name value
  | member {t : RuntimeType Value} {name : String} {value : Value}
      (found : t.members.find? name = some value) : Offers a (.type t) name value
  | itemCount (items : List Value) :
      Offers a (.array items) "count" (.int (Int64.ofNat items.length))
  | hasNoItems (items : List Value) : Offers a (.array items) "isEmpty" (.bool items.isEmpty)
  | characterCount (s : String) : Offers a (.string s) "count" (.int (Int64.ofNat s.length))
  | hasNoCharacters (s : String) : Offers a (.string s) "isEmpty" (.bool s.isEmpty)

/-- Where one comes from a value along names, on the way of a whole path: each name leads to what
the value before has under it, a value that is a path grows by all names that are left, and where a
value has nothing under the next name, the whole path is the result. -/
inductive Walks (a : Arena ο) (whole : List String) : Value → List String → Value → Prop
  | arrived (value : Value) : Walks a whole value [] value
  | onward {value next result : Value} {name : String} {rest : List String}
      (offers : a.Offers value name next) (further : Walks a whole next rest result) :
      Walks a whole value (name :: rest) result
  | path (names rest : List String) : Walks a whole (.path names) rest (.path (names ++ rest))
  | stopped {value : Value} {name : String} {rest : List String}
      (noPath : ∀ names, value ≠ .path names) (nothing : ∀ next, ¬ a.Offers value name next) :
      Walks a whole value (name :: rest) (.path whole)

theorem offers_object_iff {object : ScopeId} {name : String} {next : Value} :
    a.Offers (.object object) name next ↔ a.findLocal? object name = some next := by
  constructor
  · intro h
    cases h with
    | binding reads => exact reads
  · exact .binding

/-- What is no object has under a name the member that it has by its kind. -/
theorem offers_iff_of_ne_object {value next : Value} {name : String}
    (other : ∀ object, value ≠ .object object) :
    a.Offers value name next ↔ Engine.memberValue? value name = some next := by
  constructor
  · intro h
    cases h with
    | @binding object => exact absurd rfl (other object)
    | member found => exact found
    | _ => rfl
  · intro h
    unfold Engine.memberValue? at h
    split at h
    · exact .member h
    · cases h
      exact .itemCount _
    · cases h
      exact .hasNoItems _
    · cases h
      exact .characterCount _
    · cases h
      exact .hasNoCharacters _
    · cases h

/-- A value has one thing under a name. -/
theorem Offers.unique {value next other : Value} {name : String} (h : a.Offers value name next)
    (h' : a.Offers value name other) : next = other := by
  by_cases object : ∃ object, value = .object object
  · obtain ⟨object, rfl⟩ := object
    rw [offers_object_iff] at h h'
    exact Option.some.inj (h.symm.trans h')
  · have other : ∀ object, value ≠ .object object := fun o same => object ⟨o, same⟩
    rw [offers_iff_of_ne_object other] at h h'
    exact Option.some.inj (h.symm.trans h')

theorem not_offers_path (names : List String) (name : String) (next : Value) :
    ¬ a.Offers (.path names) name next := by
  intro h
  cases h

/-- By induction on the walk: it comes to one value only. -/
theorem Walks.unique {whole names : List String} {value result other : Value}
    (h : a.Walks whole value names result) (h' : a.Walks whole value names other) :
    result = other := by
  induction h with
  | arrived value =>
    cases h' with
    | arrived => rfl
    | path names => simp
  | onward offers _ ih =>
    cases h' with
    | onward offers' further' => exact ih (offers.unique offers' ▸ further')
    | path => exact absurd offers (not_offers_path _ _ _)
    | stopped _ nothing => exact absurd offers (nothing _)
  | path names rest =>
    cases h' with
    | arrived => simp
    | onward offers => exact absurd offers (not_offers_path _ _ _)
    | path => rfl
    | stopped noPath => exact absurd rfl (noPath names)
  | stopped noPath nothing =>
    cases h' with
    | onward offers => exact absurd offers (nothing _)
    | path names => exact absurd rfl (noPath names)
    | stopped => rfl

/-- With one more name at the end of the path, the walk goes one name further from where it came
to. If it had stopped, the path that it came to grows by the name, and so does the whole path. -/
theorem Walks.concat {whole names : List String} {value middle result : Value} {last : String}
    (h : a.Walks whole value names middle)
    (further : a.Walks (whole ++ [last]) middle [last] result) :
    a.Walks (whole ++ [last]) value (names ++ [last]) result := by
  -- a path that the walk has come to grows by the last name
  have grown : ∀ {q : List String}, a.Walks (whole ++ [last]) (.path q) [last] result →
      result = .path (q ++ [last]) :=
    fun further => further.unique (.path _ [last])
  induction h with
  | arrived value => exact further
  | onward offers _ ih => exact .onward offers (ih further)
  | path names rest =>
    rw [grown further, List.append_assoc]
    exact .path names (rest ++ [last])
  | stopped noPath nothing =>
    rw [grown further]
    exact .stopped noPath nothing

/-- A name reads as nothing exactly where no scope outward binds it. -/
theorem find?_eq_none_iff {id : ScopeId} {name : String} :
    a.find? id name = none ↔ a.resolve? id name = none := by
  unfold find?
  cases found : a.resolve? id name with
  | none => simp
  | some owner =>
    have bound := (nearest_of_resolveWithin? found).isSome
    simp [← Option.isSome_iff_ne_none, bound]

end Arena

namespace Engine

open EvalM Arena

variable {σ : Type}

/-- The member that is read of a value is what the value has under the name. Where it has nothing,
what is read is the whole path. -/
theorem on_readMemberOf (value : Value) (name : String) {whole : Expr} {names : List String}
    (path : whole.path? = some names) (held : List Value) (w : World σ) :
    ∃ result place, (readMemberOf value name whole).on held w = (.ok (result, place), w) ∧
      w.arena.Walks names value [name] result := by
  have byKind : (∀ q, value ≠ .path q) →
      (∀ next, w.arena.Offers value name next ↔ memberValue? value name = some next) →
      ∃ result place, (readMemberByKind value name whole).on held w = (.ok (result, place), w) ∧
        w.arena.Walks names value [name] result := by
    intro noPath offers
    unfold readMemberByKind
    cases member : memberValue? value name with
    | some next =>
      exact ⟨next, none, rfl, .onward ((offers next).2 member) (.arrived next)⟩
    | none =>
      rw [path]
      refine ⟨.path names, none, rfl, .stopped noPath fun next offered => ?_⟩
      rw [offers, member] at offered
      cases offered
  cases value with
  | object object =>
    cases reads : w.arena.findLocal? object name with
    | some next =>
      refine ⟨next, some ⟨object, name⟩, ?_, .onward (.binding reads) (.arrived next)⟩
      simp only [readMemberOf, on_bind, on_findLocal?, reads, on_pure]
    | none =>
      obtain ⟨result, place, ends, walk⟩ :=
        byKind (by simp) (by simp [offers_object_iff, reads, memberValue?])
      refine ⟨result, place, ?_, walk⟩
      simp only [readMemberOf, on_bind, on_findLocal?, reads]
      exact ends
  | path q => exact ⟨.path (q ++ [name]), none, rfl, .path q [name]⟩
  | _ => exact byKind (by simp) (fun _ => offers_iff_of_ne_object (by simp))

theorem plainName?_ofPath (first second : String) (others : List String) :
    plainName? (.ofPath first (second :: others)) = none := by
  obtain rfl | ⟨start, last, rfl⟩ := others.eq_nil_or_concat
  · rfl
  · rw [List.concat_eq_append, ← List.cons_append, Expr.ofPath_append_singleton]
    rfl

/-- By induction on the path, from its last name back: it is read without a change, as itself if
nobody has bound its first name, and else as what the walk comes to. -/
theorem on_read_ofPath (engine : Engine σ) (run : Expr → Deferred σ Value) (first second : String)
    (others : List String) (scope : ScopeId) (held : List Value) (w : World σ) :
    ∃ result place, ((engine.meaning run (.ofPath first (second :: others))).read scope).on held w =
        (.ok (result, place), w) ∧
      match w.arena.find? scope first with
      | none => result = .path (first :: second :: others)
      | some start =>
        w.arena.Walks (first :: second :: others) start (second :: others) result := by
  induction others using List.reverseRecOn with
  | nil =>
    have base : Expr.ofPath first [second] = .member (.name first) second := rfl
    rw [base]
    simp only [meaning, readMember, plainName?]
    cases found : w.arena.resolve? scope first with
    | none =>
      rw [find?_eq_none_iff.2 found]
      refine ⟨.path [first, second], none, ?_, rfl⟩
      refine (on_bind_of_ok (on_resolve? scope first held w)).trans ?_
      rw [found]
      rfl
    | some owner =>
      obtain ⟨start, bound⟩ := Option.isSome_iff_exists.1 (nearest_of_resolveWithin? found).isSome
      have path : (Expr.member (.name first) second).path? = some [first, second] := rfl
      obtain ⟨result, place, ends, walk⟩ := on_readMemberOf start second path held w
      have read : (readName first scope).on held w = (.ok (start, some ⟨owner, first⟩), w) := by
        simp only [readName, on_bind, on_resolve?, found, on_findLocal?, bound, on_pure]
      have value : w.arena.find? scope first = some start := by rw [find?, found]; exact bound
      rw [value]
      refine ⟨result, place, ?_, walk⟩
      refine (on_bind_of_ok (on_resolve? scope first held w)).trans ?_
      rw [found]
      exact (on_bind_of_ok read).trans ends
  | append_singleton shorter last ih =>
    obtain ⟨middle, read, reads, walk⟩ := ih
    have longer := Expr.ofPath_append_singleton first (second :: shorter) last
    rw [List.cons_append] at longer
    have path := Expr.path?_ofPath first (second :: (shorter ++ [last]))
    rw [longer] at path
    obtain ⟨result, place, ends, further⟩ := on_readMemberOf middle last path held w
    refine ⟨result, place, ?_, ?_⟩
    · rw [longer]
      simp only [meaning, readMember, plainName?_ofPath]
      exact (on_bind_of_ok reads).trans ends
    · cases found : w.arena.find? scope first with
      | none =>
        rw [found] at walk
        subst walk
        exact further.unique (.path _ [last])
      | some start =>
        rw [found] at walk
        exact walk.concat further

end Engine

end Fluent

import Fluent.Proofs.Arena.Parents

/-!
# Reading through stale handles

A search starts at a scope, so from a released one it finds nothing. A read of one scope asks the
open argument lists before it asks the scope, and they outlive the scopes that were written to: to
the other arguments of its list, what one argument wrote before the scope was released reads as it
was before that write.

Main statements: `findLocal?_eq_some_iff_of_stale`, what a stale handle reads as; and
`Operation.not_stale_reads_empty`, a run after which it reads as something.
-/
namespace Fluent

namespace Arena

variable {ο : Type}

/-- The argument lists, the innermost first, let a binding read as its prior value exactly if the
first of them during which it was written is at another argument than the one that wrote it. -/
theorem masked?_eq_some_iff (place : Place) (journal : List Frame) (prior : Option Value) :
    masked? place journal = some prior ↔
      ∃ inner frame outer writer, journal = inner ++ frame :: outer ∧
        (∀ f ∈ inner, f.touched.find? place = none) ∧
        frame.touched.find? place = some ⟨prior, writer⟩ ∧ writer ≠ frame.current := by
  induction journal with
  | nil => simp [masked?]
  | cons frame outer ih =>
    cases touched : frame.touched.find? place with
    | none =>
      simp only [masked?, touched, ih]
      constructor
      · rintro ⟨inner, first, rest, writer, rfl, untouched, wrote, other⟩
        exact ⟨frame :: inner, first, rest, writer, rfl, by simpa [touched] using untouched, wrote,
          other⟩
      · rintro ⟨inner, first, rest, writer, split, untouched, wrote, other⟩
        obtain ⟨rfl, split⟩ | ⟨inner, rfl, rfl⟩ := List.cons_eq_append_iff.1 split
        · obtain ⟨rfl, rfl⟩ := List.cons.inj split
          rw [touched] at wrote
          cases wrote
        · exact ⟨inner, first, rest, writer, rfl, fun f hf => untouched f (by simp [hf]), wrote,
            other⟩
    | some written =>
      have here : masked? place (frame :: outer) = some prior ↔
          written.writer ≠ frame.current ∧ written.prior = prior := by
        simp only [masked?, touched]
        split <;> simp_all
      rw [here]
      constructor
      · rintro ⟨other, rfl⟩
        exact ⟨[], frame, outer, written.writer, rfl, by simp, touched, other⟩
      · rintro ⟨inner, first, rest, writer, split, untouched, wrote, other⟩
        obtain ⟨rfl, split⟩ | ⟨inner, rfl, rfl⟩ := List.cons_eq_append_iff.1 split
        · obtain ⟨rfl, rfl⟩ := List.cons.inj split
          rw [touched] at wrote
          cases wrote
          exact ⟨other, rfl⟩
        · rw [untouched frame (by simp)] at touched
          cases touched

/-- No search from a released scope finds anything. A read of the released scope alone finds what
the first of the open lists during which the binding was written, the innermost first, keeps as its
prior value, if that list is at another argument than the one that wrote the binding; so it finds
nothing where no list is open. -/
theorem findLocal?_eq_some_iff_of_stale (a : Arena ο) {id : ScopeId} (stale : a.scope? id = none)
    (name : String) :
    a.resolve? id name = none ∧ a.find? id name = none ∧
      (a.journal = [] → a.findLocal? id name = none) ∧
      ∀ v, a.findLocal? id name = some v ↔
        ∃ inner frame outer writer, a.journal = inner ++ frame :: outer ∧
          (∀ f ∈ inner, f.touched.find? ⟨id, name⟩ = none) ∧
          frame.touched.find? ⟨id, name⟩ = some ⟨some v, writer⟩ ∧ writer ≠ frame.current := by
  have unresolved := resolve?_of_scope?_eq_none stale name
  have nothing : a.stored? id name = none := by simp [stored?, stale]
  refine ⟨unresolved, by simp [find?, unresolved], fun closed => ?_, fun v => ?_⟩
  · rw [findLocal?_of_journal_eq_nil a closed, nothing]
  · rw [← masked?_eq_some_iff]
    cases masked : masked? ⟨id, name⟩ a.journal <;>
      simp [findLocal?, readUnder, masked, nothing]

end Arena

namespace Operation

open Arena

/-- An activation's scope that one argument writes to and that is released before the list comes to
its next argument. -/
def leftBehind : List (Operation Unit) :=
  [.pushFunction global, .define ⟨1, 0⟩ "x" (.bool true), .openArguments, .beginArgument 0,
    .define ⟨1, 0⟩ "x" (.bool false), .popFunction ⟨1, 0⟩, .beginArgument 1]

/-- A released scope does not read as empty in every state that a run can reach. -/
theorem not_stale_reads_empty :
    ¬ ∀ (ops : List (Operation Unit)) (id : ScopeId) (name : String),
      let a := afterAll ops (ofGlobals .strict [])
      a.scope? id = none →
        a.find? id name = none ∧ a.findLocal? id name = none ∧ a.resolve? id name = none := by
  intro empty
  have reads : (afterAll leftBehind (ofGlobals .strict [])).findLocal? ⟨1, 0⟩ "x" =
      some (.bool true) := rfl
  obtain ⟨-, nothing, -⟩ := empty leftBehind ⟨1, 0⟩ "x" rfl
  rw [reads] at nothing
  cases nothing

/-- From the released scope the search finds nothing, but the scope reads as before the write. -/
theorem findLocal?_eq_some_iff_of_leftBehind :
    (afterAll leftBehind (ofGlobals .strict [])).find? ⟨1, 0⟩ "x" = none ∧
      (afterAll leftBehind (ofGlobals .strict [])).findLocal? ⟨1, 0⟩ "x" = some (.bool true) := by
  obtain ⟨-, found, -, reads⟩ := findLocal?_eq_some_iff_of_stale
    (afterAll leftBehind (ofGlobals .strict []))
    (show (afterAll leftBehind (ofGlobals .strict [])).scope? ⟨1, 0⟩ = none from rfl) "x"
  exact ⟨found, (reads _).2 ⟨[], _, [], 0, rfl, by simp, rfl, by decide⟩⟩

end Operation

end Fluent

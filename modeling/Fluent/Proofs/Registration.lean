import Fluent.Recording

/-!
# Registering handlers

Handlers are registered one after the other, up to the first whose name is taken and may not be
given away. If all are, each of them is found under its name, unless a later one of its kind took
the name over; recording handlers of one name and kind are all alike.

Main statements: `find?_constructors_of_install` and `find?_decorators_of_install`, what a registry
answers into which a recording host has been installed.
-/
namespace Fluent

namespace RegistryM

variable {σ α β : Type}

/-- What an action on a registry ends with, and the registry that it leaves behind. -/
def on (action : RegistryM σ α) (r : Registry σ) : Except EvalError α × Registry σ :=
  action.run.run r

theorem on_bind (x : RegistryM σ α) (f : α → RegistryM σ β) (r : Registry σ) :
    (x >>= f).on r = match x.on r with
      | (.ok v, r) => (f v).on r
      | (.error e, r) => (.error e, r) := by
  simp only [on, ExceptT.run_bind, StateT.run_bind]
  generalize StateT.run x.run r = answer
  obtain ⟨_ | v, r⟩ := answer <;> rfl

end RegistryM

namespace Registry

variable {σ : Type}

/-- A handler whose name is taken is rejected if the policy says so. -/
theorem on_register (name : String) (handler : Handler σ) (r : Registry σ) :
    (register name handler).on r =
      if r.contains handler.kind name && r.policy = .reject then
        (.error (.duplicate handler.kind name), r)
      else (.ok (), r.put name handler) := by
  rw [register, RegistryM.on_bind]
  show (RegistryM.on (if r.contains handler.kind name && r.policy = .reject then _ else _) r) = _
  split <;> rfl

/-- The entries are registered one by one. -/
theorem on_registerAll_cons (entry : String × Handler σ) (rest : List (String × Handler σ))
    (r : Registry σ) :
    (registerAll (entry :: rest)).on r =
      if r.contains entry.2.kind entry.1 && r.policy = .reject then
        (.error (.duplicate entry.2.kind entry.1), r)
      else (registerAll rest).on (r.put entry.1 entry.2) := by
  show (register entry.1 entry.2 >>= fun _ => registerAll rest).on r = _
  rw [RegistryM.on_bind, on_register]
  by_cases stops : (r.contains entry.2.kind entry.1 && r.policy = .reject) = true
  · rw [if_pos stops, if_pos stops]
  · rw [if_neg stops, if_neg stops]

/-- If all handlers are registered, so is the first, and then the others. -/
theorem registerAll_of_cons {entry : String × Handler σ} {rest : List (String × Handler σ)}
    {r r' : Registry σ} (done : (registerAll (entry :: rest)).on r = (.ok (), r')) :
    (registerAll rest).on (r.put entry.1 entry.2) = (.ok (), r') := by
  rw [on_registerAll_cons] at done
  by_cases taken : (r.contains entry.2.kind entry.1 && r.policy = .reject) = true
  · rw [if_pos taken] at done
    cases done
  · rwa [if_neg taken] at done

/-- What every registration keeps, all of them keep. -/
theorem keeps_registerAll {good : Registry σ → Prop} {handlers : List (String × Handler σ)}
    (keeps : ∀ r, ∀ other ∈ handlers, good r → good (r.put other.1 other.2)) {r r' : Registry σ}
    (done : (registerAll handlers).on r = (.ok (), r')) (h : good r) : good r' := by
  induction handlers generalizing r with
  | nil =>
    cases done
    exact h
  | cons first rest ih =>
    exact ih (fun r other mem => keeps r other (List.mem_cons_of_mem _ mem))
      (registerAll_of_cons done) (keeps r first List.mem_cons_self h)

/-- What one of the registrations brings about and every one keeps holds after all of them. -/
theorem good_of_registerAll (good : Registry σ → Prop) {handlers : List (String × Handler σ)}
    {one : String × Handler σ} (mem : one ∈ handlers)
    (made : ∀ r : Registry σ, good (r.put one.1 one.2))
    (keeps : ∀ r, ∀ other ∈ handlers, good r → good (r.put other.1 other.2)) {r r' : Registry σ}
    (done : (registerAll handlers).on r = (.ok (), r')) : good r' := by
  induction handlers generalizing r with
  | nil => cases mem
  | cons first rest ih =>
    have later : ∀ r, ∀ other ∈ rest, good r → good (r.put other.1 other.2) :=
      fun r other mem => keeps r other (List.mem_cons_of_mem _ mem)
    obtain rfl | mem := List.mem_cons.1 mem
    · exact keeps_registerAll later (registerAll_of_cons done) (made r)
    · exact ih mem later (registerAll_of_cons done)

end Registry

namespace Recording

open Registry

variable {σ : Type} {views modifiers : List String} {before after : Registry σ}

/-- The handlers of a recording host are recording ones, under their own names. -/
theorem eq_of_mem_handlers {name : String} {handler : Handler σ}
    (mem : (name, handler) ∈ handlers views modifiers) :
    handler = .constructor (constructor name) ∨ handler = .decorator (decorator name) := by
  obtain mem | mem := List.mem_append.1 mem
  · obtain ⟨kind, -, same⟩ := List.mem_map.1 mem
    cases same
    exact .inl rfl
  · obtain ⟨kind, -, same⟩ := List.mem_map.1 mem
    cases same
    exact .inr rfl

/-- Every view of an installed recording host is constructed by being recorded. -/
theorem find?_constructors_of_install (done : (install views modifiers).on before = (.ok (), after))
    {name : String} (mem : name ∈ views) :
    after.constructors.find? name = some (constructor name) := by
  refine good_of_registerAll (fun r => r.constructors.find? name = some (constructor name))
    (List.mem_append_left _ (List.mem_map.2 ⟨name, mem, rfl⟩)) ?_ ?_ done
  · intro r
    exact Table.find?_insert_self _ _ _
  · rintro r ⟨other, handler⟩ known here
    obtain rfl | rfl := eq_of_mem_handlers known
    · simp only [put, Table.find?_insert]
      split
      · rename_i same
        rw [same]
      · exact here
    · exact here

/-- Every modifier of an installed recording host is applied by being recorded. -/
theorem find?_decorators_of_install (done : (install views modifiers).on before = (.ok (), after))
    {name : String} (mem : name ∈ modifiers) :
    after.decorators.find? name = some (decorator name) := by
  refine good_of_registerAll (fun r => r.decorators.find? name = some (decorator name))
    (List.mem_append_right _ (List.mem_map.2 ⟨name, mem, rfl⟩)) ?_ ?_ done
  · intro r
    exact Table.find?_insert_self _ _ _
  · rintro r ⟨other, handler⟩ known here
    obtain rfl | rfl := eq_of_mem_handlers known
    · exact here
    · simp only [put, Table.find?_insert]
      split
      · rename_i same
        rw [same]
      · exact here

end Recording

end Fluent

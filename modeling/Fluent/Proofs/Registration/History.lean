import Fluent.Collection
import Fluent.Proofs.Registration

/-!
# Registries and their history

A registry forgets in which order it was given its handlers, and which of them it did not take. What
it answers can all the same be told from the handlers that it was given: under the policy that
rejects, the first one for a kind and a name counts, and under the one that replaces, the last.
Those who install a host give its handlers one after the other and stop at the first that is
rejected, because its name is taken already or because an entry before it in the same lists has
taken it.

Main statements: `Reflects.registerAll`, what handlers that are given one after the other leave;
`Registry.on_registerAll_eq_error_iff`, where they stop; and `Registration.registry_determined`.
-/
namespace Fluent

namespace Registry

variable {σ : Type}

/-! ### What registries answer -/

/-- The handler of a kind under a name. -/
def find? (r : Registry σ) (kind : HandlerKind) (name : String) : Option (Handler σ) :=
  match kind with
  | .constructor => (r.constructors.find? name).map .constructor
  | .decorator => (r.decorators.find? name).map .decorator
  | .member => (r.members.find? name).map .member

/-- What those are told who look a handler up that is not there. -/
def unknown (kind : HandlerKind) (name : String) : EvalError :=
  match kind with
  | .constructor => .unknownConstructor name
  | .decorator => .unsupportedModifier name
  | .member => .unknownFunction name

/-- The answer to those who look a handler up. -/
def answer (kind : HandlerKind) (name : String) : Option (Handler σ) → Except EvalError (Handler σ)
  | some handler => .ok handler
  | none => .error (unknown kind name)

/-- Looks a handler up, each kind in its own way. -/
def lookup (r : Registry σ) (kind : HandlerKind) (name : String) : Except EvalError (Handler σ) :=
  match kind with
  | .constructor => (r.constructorOf name).map .constructor
  | .decorator => (r.decoratorOf name).map .decorator
  | .member => (r.memberOf name).map .member

theorem lookup_eq (r : Registry σ) (kind : HandlerKind) (name : String) :
    r.lookup kind name = answer kind name (r.find? kind name) := by
  cases kind with
  | constructor =>
    simp only [lookup, find?, constructorOf]
    cases r.constructors.find? name <;> rfl
  | decorator =>
    simp only [lookup, find?, decoratorOf]
    cases r.decorators.find? name <;> rfl
  | member =>
    simp only [lookup, find?, memberOf]
    cases r.members.find? name <;> rfl

theorem contains_eq (r : Registry σ) (kind : HandlerKind) (name : String) :
    r.contains kind name = (r.find? kind name).isSome := by
  cases kind <;> simp [contains, find?, Table.contains]

/-- The kind and the name for which an entry gives a handler. -/
def keyOf (entry : String × Handler σ) : HandlerKind × String :=
  (entry.2.kind, entry.1)

/-- Only the handler of that kind and name is exchanged. -/
theorem find?_put (r : Registry σ) (entry : String × Handler σ) (kind : HandlerKind)
    (name : String) :
    (r.put entry.1 entry.2).find? kind name =
      if keyOf entry = (kind, name) then some entry.2 else r.find? kind name := by
  obtain ⟨given, handler⟩ := entry
  by_cases same : given = name <;> cases handler <;> cases kind <;>
    simp [find?, put, keyOf, Handler.kind, Table.find?_insert, same]

theorem contains_put (r : Registry σ) (entry : String × Handler σ) (kind : HandlerKind)
    (name : String) :
    (r.put entry.1 entry.2).contains kind name = true ↔
      keyOf entry = (kind, name) ∨ r.contains kind name = true := by
  rw [contains_eq, contains_eq, find?_put]
  split
  · rename_i same
    simp [same]
  · rename_i other
    simp [other]

/-- The names of a kind are sorted, and none of them stands there twice. -/
theorem pairwise_names {r : Registry σ} {kind : HandlerKind} (nodup : (r.registered kind).Nodup) :
    (r.names kind).Pairwise (· < ·) := by
  have sorted : (r.names kind).Pairwise fun a b => decide (a ≤ b) = true := by
    refine @List.pairwise_mergeSort String (fun a b => decide (a ≤ b)) ?_ ?_ (r.registered kind)
    · intro a b c first second
      exact decide_eq_true (String.le_trans (of_decide_eq_true first) (of_decide_eq_true second))
    · intro a b
      simpa only [Bool.or_eq_true, decide_eq_true_eq] using String.le_total a b
  have different : (r.names kind).Nodup := (List.mergeSort_perm _ _).nodup_iff.2 nodup
  refine (sorted.and different).imp fun ⟨le, ne⟩ => ?_
  exact Std.lt_of_le_of_ne (of_decide_eq_true le) ne

theorem mem_names_iff (r : Registry σ) (kind : HandlerKind) (name : String) :
    name ∈ r.names kind ↔ r.contains kind name = true := by
  rw [names, List.mem_mergeSort, contains_iff]

/-! ### The handler that counts -/

/-- The handler for a kind and a name that counts among those that were given: the first one, or
the last if later ones take the place of earlier ones. -/
def decisive? (policy : DuplicatePolicy) (given : List (String × Handler σ)) (kind : HandlerKind)
    (name : String) : Option (Handler σ) :=
  let rivals := (given.filter fun entry => keyOf entry = (kind, name)).map Prod.snd
  match policy with
  | .reject => rivals.head?
  | .replace => rivals.getLast?

theorem isSome_decisive?_iff (policy : DuplicatePolicy) (given : List (String × Handler σ))
    (kind : HandlerKind) (name : String) :
    (decisive? policy given kind name).isSome = true ↔ (kind, name) ∈ given.map keyOf := by
  cases policy <;> simp [decisive?, List.mem_map, keyOf]

/-- One more handler counts for its kind and name if there is none yet or if later ones replace
earlier ones. -/
theorem decisive?_append_singleton (policy : DuplicatePolicy) (given : List (String × Handler σ))
    (entry : String × Handler σ) (kind : HandlerKind) (name : String) :
    decisive? policy (given ++ [entry]) kind name =
      if keyOf entry = (kind, name) ∧ (policy = .replace ∨ (kind, name) ∉ given.map keyOf) then
        some entry.2
      else decisive? policy given kind name := by
  by_cases same : keyOf entry = (kind, name)
  · cases policy with
    | replace => simp [decisive?, same]
    | reject =>
      have rivals := isSome_decisive?_iff .reject given kind name
      simp only [decisive?] at rivals
      by_cases known : (kind, name) ∈ given.map keyOf
      · obtain ⟨first, found⟩ := Option.isSome_iff_exists.1 (rivals.2 known)
        simp [decisive?, known, same, found]
      · have none := Option.not_isSome_iff_eq_none.1 (mt rivals.1 known)
        simp [decisive?, known, same, none]
  · simp [decisive?, same]

/-- The entries that are tried of a list, given those that were given before: all of them, or those
up to the first whose kind and name are taken, if it is rejected. -/
def tried (policy : DuplicatePolicy) :
    List (String × Handler σ) → List (String × Handler σ) → List (String × Handler σ)
  | _, [] => []
  | before, entry :: rest =>
    if policy = .reject ∧ keyOf entry ∈ before.map keyOf then [entry]
    else entry :: tried policy (before ++ [entry]) rest

/-- The registry answers as those handlers say that it was given. -/
structure Reflects (policy : DuplicatePolicy) (given : List (String × Handler σ))
    (r : Registry σ) : Prop where
  policy_eq : r.policy = policy
  find?_eq : ∀ kind name, r.find? kind name = decisive? policy given kind name
  nodup : ∀ kind, (r.registered kind).Nodup

variable {policy : DuplicatePolicy} {given : List (String × Handler σ)} {r : Registry σ}

theorem Reflects.contains_iff (h : Reflects policy given r) (kind : HandlerKind) (name : String) :
    r.contains kind name = true ↔ (kind, name) ∈ given.map keyOf := by
  rw [contains_eq, h.find?_eq, isSome_decisive?_iff]

/-- A name is listed once, also if its handler is exchanged. -/
theorem nodup_registered_put (nodup : ∀ kind, (r.registered kind).Nodup)
    (entry : String × Handler σ) (kind : HandlerKind) :
    ((r.put entry.1 entry.2).registered kind).Nodup := by
  by_cases same : entry.2.kind = kind
  · subst same
    rw [registered_put]
    split
    · exact nodup _
    · rename_i free
      rw [r.contains_iff] at free
      refine List.nodup_append.2 ⟨nodup _, by simp, ?_⟩
      rintro name mem _ last rfl
      exact free (List.mem_singleton.1 last ▸ mem)
  · rw [registered_put_of_kind_ne r entry.1 entry.2 kind same]
    exact nodup kind

/-- A handler that is accepted is one more that was given. -/
theorem Reflects.put (h : Reflects policy given r) (entry : String × Handler σ)
    (accepted : policy = .replace ∨ keyOf entry ∉ given.map keyOf) :
    Reflects policy (given ++ [entry]) (r.put entry.1 entry.2) where
  policy_eq := (r.policy_put _ _).trans h.policy_eq
  find?_eq kind name := by
    rw [find?_put, decisive?_append_singleton, h.find?_eq]
    by_cases same : keyOf entry = (kind, name)
    · rw [same] at accepted
      rw [if_pos same, if_pos ⟨same, accepted⟩]
    · rw [if_neg same, if_neg fun both => same both.1]
  nodup := nodup_registered_put h.nodup entry

/-- A handler that is rejected is one more that was given, too, but it does not count. -/
theorem Reflects.rejected (h : Reflects .reject given r) {entry : String × Handler σ}
    (taken : keyOf entry ∈ given.map keyOf) : Reflects .reject (given ++ [entry]) r where
  policy_eq := h.policy_eq
  find?_eq kind name := by
    rw [decisive?_append_singleton, if_neg, h.find?_eq]
    rintro ⟨same, impossible | free⟩
    · cases impossible
    · exact free (same ▸ taken)
  nodup := h.nodup

/-- By induction on the entries: the registry that they leave reflects those that were tried, and
all were tried if none was rejected. -/
theorem Reflects.registerAll (h : Reflects policy given r) (entries : List (String × Handler σ)) :
    Reflects policy (given ++ tried policy given entries) ((registerAll entries).on r).2 ∧
      ∀ r', (registerAll entries).on r = (.ok (), r') → tried policy given entries = entries := by
  induction entries generalizing given r with
  | nil =>
    refine ⟨?_, fun _ _ => rfl⟩
    rw [tried, List.append_nil]
    exact h
  | cons entry rest ih =>
    rw [on_registerAll_cons, tried]
    have taken := h.contains_iff entry.2.kind entry.1
    by_cases clash : policy = .reject ∧ keyOf entry ∈ given.map keyOf
    · obtain ⟨rfl, known⟩ := clash
      rw [if_pos ⟨rfl, known⟩, if_pos (by simp [taken.2 known, h.policy_eq])]
      exact ⟨h.rejected known, fun r' done => by cases done⟩
    · have accepted : policy = .replace ∨ keyOf entry ∉ given.map keyOf := by
        cases policy with
        | replace => exact .inl rfl
        | reject => exact .inr fun known => clash ⟨rfl, known⟩
      have free : ¬ (r.contains entry.2.kind entry.1 && r.policy = .reject) = true := by
        rw [h.policy_eq, Bool.and_eq_true, decide_eq_true_eq]
        exact fun both => clash ⟨both.2, taken.1 both.1⟩
      rw [if_neg clash, if_neg free]
      obtain ⟨reflects, all⟩ := ih (h.put entry accepted)
      rw [List.append_assoc] at reflects
      exact ⟨reflects, fun r' done => by rw [all r' done]⟩

/-! ### Where entries stop -/

/-- The entry is the first one that clashes: its kind and name are taken, in the registry or by an
entry before it, and those entries clash neither with the registry nor with one another. -/
structure FirstClash (r : Registry σ) (before : List (String × Handler σ))
    (entry : String × Handler σ) : Prop where
  free : ∀ one ∈ before, r.contains one.2.kind one.1 = false
  nodup : (before.map keyOf).Nodup
  clash : r.contains entry.2.kind entry.1 = true ∨ keyOf entry ∈ before.map keyOf

/-- What clashes after the first entry clashes with the registry that has this entry, too. -/
theorem firstClash_cons (r : Registry σ) (first : String × Handler σ)
    (before : List (String × Handler σ)) (entry : String × Handler σ) :
    FirstClash r (first :: before) entry ↔
      r.contains first.2.kind first.1 = false ∧
        FirstClash (r.put first.1 first.2) before entry := by
  have known := fun one : String × Handler σ => r.contains_put first one.2.kind one.1
  constructor
  · rintro ⟨free, nodup, clash⟩
    obtain ⟨new, nodup⟩ := List.nodup_cons.1 (List.map_cons ▸ nodup)
    refine ⟨free first List.mem_cons_self, ⟨fun one mem => ?_, nodup, ?_⟩⟩
    · rw [← Bool.not_eq_true, known]
      rintro (same | taken)
      · exact new (List.mem_map.2 ⟨one, mem, same.symm⟩)
      · rw [free one (List.mem_cons_of_mem _ mem)] at taken
        cases taken
    · rw [known]
      obtain taken | mem := clash
      · exact .inl (.inr taken)
      · obtain same | mem := List.mem_cons.1 (List.map_cons ▸ mem)
        · exact .inl (.inl same.symm)
        · exact .inr mem
  · rintro ⟨absent, free, nodup, clash⟩
    have apart : ∀ one ∈ before, ¬ (keyOf first = keyOf one ∨
        r.contains one.2.kind one.1 = true) := by
      intro one mem
      have none := free one mem
      rw [← Bool.not_eq_true, known] at none
      exact none
    refine ⟨fun one mem => ?_, ?_, ?_⟩
    · obtain rfl | mem := List.mem_cons.1 mem
      · exact absent
      · exact Bool.not_eq_true _ ▸ fun taken => apart one mem (.inr taken)
    · rw [List.map_cons, List.nodup_cons]
      refine ⟨fun mem => ?_, nodup⟩
      obtain ⟨one, mem, same⟩ := List.mem_map.1 mem
      exact apart one mem (.inl same.symm)
    · rw [known] at clash
      rw [List.map_cons, List.mem_cons]
      obtain (same | taken) | mem := clash
      · exact .inr (.inl same.symm)
      · exact .inl taken
      · exact .inr (.inr mem)

/-- By induction on the entries: they stop with an error exactly at the first one that clashes, if
the policy is to reject, and leave the registry with those before it. -/
theorem on_registerAll_eq_error_iff (entries : List (String × Handler σ)) (r r' : Registry σ)
    (e : EvalError) :
    (registerAll entries).on r = (.error e, r') ↔
      r.policy = .reject ∧ ∃ before entry after, entries = before ++ entry :: after ∧
        FirstClash r before entry ∧ e = .duplicate entry.2.kind entry.1 ∧
        (registerAll before).on r = (.ok (), r') := by
  induction entries generalizing r with
  | nil =>
    constructor
    · intro impossible
      cases impossible
    · rintro ⟨-, before, entry, after, split, -⟩
      simp at split
  | cons first rest ih =>
    rw [on_registerAll_cons]
    by_cases stops : (r.contains first.2.kind first.1 && r.policy = .reject) = true
    · have both := stops
      rw [Bool.and_eq_true, decide_eq_true_eq] at both
      rw [if_pos stops]
      constructor
      · intro ends
        cases ends
        exact ⟨both.2, [], first, rest, rfl, ⟨by simp, List.nodup_nil, .inl both.1⟩, rfl, rfl⟩
      · rintro ⟨-, before, entry, after, split, first', rfl, done⟩
        cases before with
        | nil =>
          cases split
          cases done
          rfl
        | cons other before =>
          cases split
          rw [first'.free first List.mem_cons_self] at both
          cases both.1
    · -- the first entry is registered, and the others meet a registry that has it
      rw [if_neg stops, ih, policy_put]
      refine and_congr_right fun reject => ?_
      have free : r.contains first.2.kind first.1 = false := by
        simpa [reject] using stops
      constructor
      · rintro ⟨before, entry, after, split, clash, error, done⟩
        refine ⟨first :: before, entry, after, by rw [split, List.cons_append],
          (firstClash_cons r first before entry).2 ⟨free, clash⟩, error, ?_⟩
        rw [on_registerAll_cons, if_neg stops]
        exact done
      · rintro ⟨before, entry, after, split, clash, error, done⟩
        cases before with
        | nil =>
          cases split
          obtain taken | impossible := clash.clash
          · rw [free] at taken
            cases taken
          · cases impossible
        | cons other before =>
          cases split
          rw [on_registerAll_cons, if_neg stops] at done
          exact ⟨before, entry, after, rfl, ((firstClash_cons r first before entry).1 clash).2,
            error, done⟩

/-! ### Registries at the beginning -/

/-- A registry to begin with, without any handlers or with the member functions of collections. -/
def opening (policy : DuplicatePolicy) (collections : Bool) : Registry σ :=
  if collections then .withCollections policy else { policy := policy }

/-- The handlers that such a registry was given. -/
def preloaded (collections : Bool) : List (String × Handler σ) :=
  if collections then Collection.handlers.map fun h => (h.1, .member h.2) else []

theorem reflects_opening (policy : DuplicatePolicy) (collections : Bool) :
    Reflects policy (preloaded collections) (opening policy collections : Registry σ) := by
  have empty : Reflects policy [] ({ policy := policy } : Registry σ) := by
    refine ⟨rfl, fun kind name => ?_, fun kind => ?_⟩
    · cases policy <;> cases kind <;> rfl
    · cases kind <;> exact List.nodup_nil
  cases collections with
  | false => exact empty
  | true =>
    have first := empty.put ("contains", .member Collection.contains) (.inr (by simp))
    have second := first.put ("shuffle", .member Collection.shuffle) (.inr (by simp [keyOf]))
    exact second.put ("shuffled", .member Collection.shuffled) (.inr (by simp [keyOf]))

end Registry

/-! ### Histories -/

/-- A call that gives a registry handlers. -/
inductive Registration (σ : Type) where
  | register (name : String) (handler : Handler σ)
  | install (views modifiers : List String)

namespace Registration

open Registry

variable {σ : Type}

/-- Carries the call out. -/
def perform : Registration σ → RegistryM σ Unit
  | register name handler => Registry.register name handler
  | install views modifiers => Recording.install views modifiers

/-- The handlers that the call has to give. -/
def entries : Registration σ → List (String × Handler σ)
  | register name handler => [(name, handler)]
  | install views modifiers => Recording.handlers views modifiers

def afterAll (calls : List (Registration σ)) (r : Registry σ) : Registry σ :=
  calls.foldl (fun r call => (call.perform.on r).2) r

/-- The handlers that a registry was given by the calls, after those that were given before. -/
def given (policy : DuplicatePolicy) (before : List (String × Handler σ))
    (calls : List (Registration σ)) : List (String × Handler σ) :=
  calls.foldl (fun before call => before ++ tried policy before call.entries) before

/-- Every call registers its entries one by one. -/
theorem on_perform (call : Registration σ) (r : Registry σ) :
    call.perform.on r = (registerAll call.entries).on r := by
  cases call with
  | register name handler =>
    rw [entries, on_registerAll_cons, perform, on_register]
    rfl
  | install views modifiers => rfl

/-- By induction on the calls: what the registry reflects grows by what they give. -/
theorem reflects_afterAll {policy : DuplicatePolicy} {before : List (String × Handler σ)}
    {r : Registry σ} (h : Reflects policy before r) (calls : List (Registration σ)) :
    Reflects policy (given policy before calls) (afterAll calls r) := by
  induction calls generalizing before r with
  | nil => exact h
  | cons call calls ih =>
    have next := (h.registerAll call.entries).1
    rw [← on_perform] at next
    exact ih next

/-- A host whose lists name a view twice is installed up to there. -/
example :
    let r : Registry Unit := afterAll [.install ["Text", "Label", "Text", "Image"] ["bold"]]
      (opening .reject true)
    r.registered .constructor = ["Text", "Label"] ∧ r.registered .decorator = [] ∧
      r.registered .member = ["contains", "shuffle", "shuffled"] := by
  decide

end Registration

end Fluent

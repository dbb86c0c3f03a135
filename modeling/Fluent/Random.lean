/-!
# Random sources and the shuffle

A random source is a state that says which 32-bit word comes next and is advanced by every draw.
Numbers below a bound are drawn without bias by rejecting words, and a shuffle swaps items at drawn
places. Which places it swaps depends on the source and on the number of items alone.
-/
namespace Fluent

/-- A state, the word that it gives, and the state after it. -/
structure Random where
  state : UInt64
  word : UInt64 → UInt32
  advance : UInt64 → UInt64

namespace Random

/-- The next word, and the source after it. -/
def next (r : Random) : UInt32 × Random :=
  (r.word r.state, { r with state := r.advance r.state })

/-- The low half that a product of a word with the bound may have at most, so that every result is
equally likely: one less than the largest multiple of the bound by a power of two that fits into
32 bits. -/
def zone (bound : Nat) : Nat :=
  bound <<< (31 - bound.log2) - 1

/-- A number below the bound: the high half of a word's product with it. A word whose product has
too large a low half is rejected, unless it is the last attempt. -/
def attempt (bound : Nat) : Nat → Random → Nat × Random
  | 0, r =>
    let (w, r) := r.next
    (w.toNat * bound / UInt32.size, r)
  | attempts + 1, r =>
    let (w, rest) := r.next
    if w.toNat * bound % UInt32.size ≤ zone bound then (w.toNat * bound / UInt32.size, rest)
    else attempt bound attempts rest

/-- How many words may be rejected for one number. Fewer than half of all words are, so that a
source of independent words gets nowhere near. -/
def attempts : Nat := 1024

/-- A number below the bound, which is positive and below `2 ^ 32`. -/
def below (bound : Nat) (r : Random) : Nat × Random :=
  attempt bound attempts r

/-- Swaps each item from the given place down to the second with a drawn item that does not stand
after it. -/
def shuffleFrom {α : Type} : Nat → Array α → Random → Array α × Random
  | 0, items, r => (items, r)
  | i + 1, items, r =>
    let (j, r) := r.below (i + 2)
    shuffleFrom i (items.swapIfInBounds (i + 1) j) r

/-- The items in a drawn order. -/
def shuffle {α : Type} (items : List α) (r : Random) : List α × Random :=
  let (shuffled, r) := shuffleFrom (items.length - 1) items.toArray r
  (shuffled.toList, r)

/-- One step of the linear congruence that the simple source iterates. -/
def congruence (state : UInt64) : UInt64 :=
  state * 6364136223846793005 + 1442695040888963407

/-- The source whose words are the high halves of the states of a linear congruence, from the one
after the seed on. -/
def linear (seed : UInt64) : Random where
  state := congruence seed
  word state := (state >>> 32).toUInt32
  advance := congruence

/-- A shuffle rearranges the items. -/
theorem shuffleFrom_perm {α : Type} (i : Nat) (items : Array α) (r : Random) :
    (shuffleFrom i items r).1.toList.Perm items.toList := by
  induction i generalizing items r with
  | zero => exact .refl _
  | succ i ih =>
    refine (ih _ _).trans ?_
    rw [Array.swapIfInBounds]
    split
    · split
      · exact Array.perm_iff_toList_perm.mp (Array.swap_perm _ _)
      · exact .refl _
    · exact .refl _

theorem shuffle_perm {α : Type} (items : List α) (r : Random) :
    (shuffle items r).1.Perm items :=
  shuffleFrom_perm _ _ _

end Random

end Fluent

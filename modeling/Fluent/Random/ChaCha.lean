import Fluent.Random

/-!
# The seeded random source

A seed of 64 bits is spread over the eight words of a key, and the words of the source are the
blocks of the ChaCha stream cipher with twelve rounds under this key, counted from zero.
-/
namespace Fluent.Random

/-- Four words that are worked on side by side. -/
abbrev Row := Vector UInt32 4

/-- The state of the cipher, as four rows. -/
structure Block where
  a : Row
  b : Row
  c : Row
  d : Row

/-- The word with its bits moved up, those at the top coming back at the bottom. -/
def rotateUp (w : UInt32) (bits : UInt32) : UInt32 :=
  (w <<< bits) ||| (w >>> (32 - bits))

/-- The word with its bits moved down, those at the bottom coming back at the top. -/
def rotateDown (w : UInt32) (bits : UInt32) : UInt32 :=
  (w >>> bits) ||| (w <<< (32 - bits))

/-- The row with its words moved to the front by some places. -/
def Row.shift (r : Row) (places : Nat) : Row :=
  Vector.ofFn fun i => r.get ⟨(i.val + places) % 4, Nat.mod_lt _ (by decide)⟩

/-- The sum of two rows, word by word. -/
def Row.add (r s : Row) : Row :=
  Vector.zipWith (· + ·) r s

/-- The exclusive or of two rows, moved up. -/
def Row.mix (r s : Row) (bits : UInt32) : Row :=
  Vector.zipWith (fun x y => rotateUp (x ^^^ y) bits) r s

namespace Block

/-- A quarter round on each of the four columns. -/
def columns (s : Block) : Block :=
  let a := s.a.add s.b
  let d := Row.mix s.d a 16
  let c := s.c.add d
  let b := Row.mix s.b c 12
  let a := a.add b
  let d := Row.mix d a 8
  let c := c.add d
  let b := Row.mix b c 7
  ⟨a, b, c, d⟩

/-- A quarter round on each of the four diagonals. -/
def diagonals (s : Block) : Block :=
  let t := columns ⟨s.a, s.b.shift 1, s.c.shift 2, s.d.shift 3⟩
  ⟨t.a, t.b.shift 3, t.c.shift 2, t.d.shift 1⟩

/-- Several double rounds. -/
def rounds : Nat → Block → Block
  | 0, s => s
  | n + 1, s => rounds n (diagonals (columns s))

/-- The sum of two states, word by word. -/
def add (s t : Block) : Block :=
  ⟨s.a.add t.a, s.b.add t.b, s.c.add t.c, s.d.add t.d⟩

/-- The words of the state in order. -/
def words (s : Block) : Vector UInt32 16 :=
  s.a ++ s.b ++ s.c ++ s.d

/-- The state before the rounds: the constants, the key and the block counter. -/
def initial (low high : Row) (counter : Nat) : Block where
  a := #v[0x61707865, 0x3320646e, 0x79622d32, 0x6b206574]
  b := low
  c := high
  d := #v[UInt32.ofNat counter, UInt32.ofNat (counter >>> 32), 0, 0]

/-- The block of the stream at a counter. -/
def stream (low high : Row) (counter : Nat) : Block :=
  let start := initial low high counter
  (rounds 6 start).add start

end Block

/-- One step of the congruence that spreads a seed. -/
def spread (state : UInt64) : UInt64 :=
  state * 6364136223846793005 + 11634580027462260723

/-- The word that a state of the spreading congruence gives. -/
def spreadWord (state : UInt64) : UInt32 :=
  rotateDown (((state >>> 18) ^^^ state) >>> 27).toUInt32 (state >>> 59).toUInt32

/-- The state of the spreading congruence after some steps. -/
def spreadState (seed : UInt64) : Nat → UInt64
  | 0 => seed
  | n + 1 => spread (spreadState seed n)

/-- The key words from the given one on. -/
def keyRow (seed : UInt64) (first : Nat) : Row :=
  Vector.ofFn fun i => spreadWord (spreadState seed (first + i.val + 1))

/-- The word at a place of the stream under a key. -/
def streamWord (low high : Row) (place : Nat) : UInt32 :=
  (Block.stream low high (place / 16)).words.get ⟨place % 16, Nat.mod_lt _ (by decide)⟩

/-- The source of a seed, whose state is the place in the stream. -/
def seeded (seed : UInt64) : Random :=
  let low := keyRow seed 0
  let high := keyRow seed 4
  { state := 0
    word := fun place => streamWord low high place.toNat
    advance := (· + 1) }

end Fluent.Random

import SentenceForge.Random.Source

/-!
# The Mersenne Twister

The generator behind a seeded source: 624 words of 32 bits, refilled
together by a linear recurrence and handed out one by one after a
tempering that mixes their bits.

A seed is an integer of any size. Its absolute value is cut into words,
least significant first, and the words are stirred into a state that was
filled from a fixed one, so that every bit of the seed reaches every word
of the state.

One of `n` candidates is drawn by taking as many leading bits of a word
as `n` has, again and again until they make a number below `n`. A number
that is refused has its top bit set. The top bits of successive words
follow a linear recurrence of degree 19937 whose period is maximal, so no
run of set bits is longer than that, and `patience` words always suffice.
-/

namespace SentenceForge.Random

/-- The number of words of the state. -/
def stateSize : Nat := 624

/-- The distance of the words that the recurrence combines. -/
def stateShift : Nat := 397

/-- **The state of a generator**: its words and how many of them were
handed out since they were refilled. -/
structure Twister where
  /-- The words of the state. -/
  words : Array UInt32
  /-- How many words were handed out. -/
  used : Nat

namespace Twister

/-! ## Seeding -/

/-- The word that follows a word in the fixed filling of a state. -/
def fillStep (word : UInt32) (i : Nat) : UInt32 :=
  (1812433253 : UInt32) * (word ^^^ (word >>> 30)) + UInt32.ofNat i

/-- The fixed filling of a state from one word. -/
def filled (word : UInt32) : Array UInt32 :=
  (List.range (stateSize - 1)).foldl
    (fun words i => words.push (fillStep (words.getD i 0) (i + 1))) #[word]

/-- One stir at position `i`, which is at least 1: the word there is
combined with the one before it, and `mix` is applied. Past the last
position the stirring goes on at position 1, the last word having been
copied to the front. -/
def stir (factor : UInt32) (mix : UInt32 → UInt32)
    (state : Array UInt32 × Nat) : Array UInt32 × Nat :=
  let (words, i) := state
  let before := words.getD (i - 1) 0
  let stirred :=
    mix (words.getD i 0 ^^^ ((before ^^^ (before >>> 30)) * factor))
  let words := words.setIfInBounds i stirred
  if i + 1 < stateSize then (words, i + 1)
  else (words.setIfInBounds 0 stirred, 1)

/-- The state that a list of seed words leads to. -/
def ofWords (key : Array UInt32) : Twister :=
  let first :=
    (List.range (max stateSize key.size)).foldl
      (fun state k =>
        let j := k % key.size
        stir 1664525 (· + key.getD j 0 + UInt32.ofNat j) state)
      (filled 19650218, 1)
  let second :=
    (List.range (stateSize - 1)).foldl
      (fun state _ =>
        stir 1566083941 (· - UInt32.ofNat state.2) state) first
  ⟨second.1.setIfInBounds 0 0x80000000, stateSize⟩

/-- The 32-bit words of a natural number, least significant first; of a
number below `2 ^ 32`, that number alone. -/
def seedWords (n : Nat) : List UInt32 :=
  if n < UInt32.size then [UInt32.ofNat n]
  else UInt32.ofNat n :: seedWords (n / UInt32.size)
termination_by n
decreasing_by
  simp only [UInt32.size] at *
  omega

/-- The state for a seed. -/
def ofSeed (seed : Int) : Twister := ofWords (seedWords seed.natAbs).toArray

/-! ## Words -/

/-- The recurrence at one position of the state. -/
def refillStep (words : Array UInt32) (i : Nat) : Array UInt32 :=
  let y := (words.getD i 0 &&& 0x80000000)
    ||| (words.getD ((i + 1) % stateSize) 0 &&& 0x7FFFFFFF)
  let far := words.getD ((i + stateShift) % stateSize) 0
  let twist : UInt32 := if y &&& 1 = 0 then 0 else 0x9908B0DF
  words.setIfInBounds i (far ^^^ (y >>> 1) ^^^ twist)

/-- The next 624 words of the recurrence. -/
def refill (words : Array UInt32) : Array UInt32 :=
  (List.range stateSize).foldl refillStep words

/-- A word as it is handed out. -/
def temper (word : UInt32) : UInt32 :=
  let y := word ^^^ (word >>> 11)
  let y := y ^^^ ((y <<< 7) &&& 0x9D2C5680)
  let y := y ^^^ ((y <<< 15) &&& 0xEFC60000)
  y ^^^ (y >>> 18)

/-- The next word, and the state after it. -/
def next (t : Twister) : UInt32 × Twister :=
  let t := if t.used < stateSize then t else ⟨refill t.words, 0⟩
  (temper (t.words.getD t.used 0), ⟨t.words, t.used + 1⟩)

/-! ## Draws -/

/-- One more than the longest run of words whose top bits are all set. -/
def patience : Nat := 19938

/-- The first of at most `tries` draws that is below `k + 1`. -/
def drawWithin (k : Nat) : Nat → Twister → Fin (k + 1) × Twister
  | 0, t => (0, t)
  | tries + 1, t =>
    let (word, after) := t.next
    let drawn := word.toNat >>> (32 - ((k + 1).log2 + 1))
    if h : drawn < k + 1 then (⟨drawn, h⟩, after)
    else drawWithin k tries after

/-- One of `k + 1` candidates. -/
def draw (k : Nat) (t : Twister) : Fin (k + 1) × Twister :=
  drawWithin k patience t

end Twister

end SentenceForge.Random

import SentenceForge.Random.Twister

/-!
# The choosers

Four kinds of source: one that always takes the first candidate, one that
always takes the last, one that follows a script, and one that draws from
a seeded generator. The first two make an expansion deterministic, the
third replays a run from the indices it chose, and the fourth is the one
for sentences nobody has seen.

They are one type, so that a session can change from one to another and
still have a single source.
-/

namespace SentenceForge.Random

/-- **A chooser**, with what it remembers. -/
inductive Chooser where
  /-- Always the first candidate. -/
  | first
  /-- Always the last candidate. -/
  | last
  /-- The indices of a script in turn, over and over, each taken modulo
  the number of candidates; `used` counts the choices made. -/
  | script (indices : List Int) (used : Nat)
  /-- A seeded generator. -/
  | seeded (state : Twister)

namespace Chooser

/-- The chooser for a seed. -/
def ofSeed (seed : Int) : Chooser := .seeded (.ofSeed seed)

/-- The chooser for a script, from its beginning. -/
def ofScript (indices : List Int) : Chooser := .script indices 0

/-- An integer reduced to one of `k + 1` candidates. -/
def reduced (k : Nat) (i : Int) : Fin (k + 1) :=
  ⟨(i % (k + 1 : Nat)).toNat % (k + 1), Nat.mod_lt _ (Nat.succ_pos k)⟩

/-- The index a script gives to a question, which is zero if the script
is empty. -/
def scripted (indices : List Int) (used : Nat) : Int :=
  indices.getD (used % indices.length) 0

/-- One of `k + 1` candidates. -/
def draw (k : Nat) : Chooser → Fin (k + 1) × Chooser
  | .first => (⟨0, Nat.succ_pos k⟩, .first)
  | .last => (Fin.last k, .last)
  | .script indices used =>
    (reduced k (scripted indices used), .script indices (used + 1))
  | .seeded state =>
    let (i, after) := state.draw k
    (i, .seeded after)

/-- The choosers as a source. -/
def source : Source Chooser := ⟨draw⟩

/-- A negative index counts from the end of the candidates. -/
example : ((ofScript [-1]).draw 2).1 = 2 := by decide

end Chooser

end SentenceForge.Random

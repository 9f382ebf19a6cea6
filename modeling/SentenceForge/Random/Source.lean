/-!
# Sources of choices

An expansion is random only in which alternative it takes, so that is all
a source is asked: one of `k + 1` candidates, by its index. Asking for
`k + 1` makes the empty question impossible to put and the answer a
member of `Fin (k + 1)` – a source cannot answer outside the candidates,
and nothing downstream has to check.

What a source remembers between questions is its own affair, so the state
is a parameter. The library draws from four kinds of source
(`SentenceForge.Random.Chooser`), and its laws hold of any.
-/

namespace SentenceForge

/-- **A source of choices** with memory `σ`: asked for one of `k + 1`
candidates, it answers with an index and its memory afterwards. -/
structure Source (σ : Type) where
  /-- The answer to a question with `k + 1` candidates. -/
  draw : (k : Nat) → σ → Fin (k + 1) × σ

/-- A choice that was made. -/
structure Choice where
  /-- How many candidates there were. -/
  candidates : Nat
  /-- Which of them was taken, counted from zero. -/
  index : Nat
  deriving DecidableEq, Repr

end SentenceForge

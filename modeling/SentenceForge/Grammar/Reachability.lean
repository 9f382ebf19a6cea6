import SentenceForge.Grammar.Basic

/-!
# Reachable and productive names

What an expansion can do depends on three relations between the names of a
grammar, and none of them mentions an expansion. A name **refers** to
those in the bodies of its alternatives. A name **reaches** another if
references lead there, and it lies on a **cycle** if they lead back to it.
A name is **productive** if it is in the least set that holds the names
without alternatives and every name one of whose alternatives refers to
its members only – this is to say that its expansion can end.

All three see a name through its case folding.
-/

namespace SentenceForge.Grammar

/-- The names that have productions, folded, in order of first
occurrence. -/
def definedNames (g : Grammar) : List Text := g.index.keys

/-- **One name refers to another**: an alternative of the first has a
reference with the case folding of the second. -/
def RefersTo (g : Grammar) (m n : Text) : Prop :=
  ∃ p ∈ g.alternatives m, ∃ r ∈ p.references, Text.fold r = Text.fold n

/-- **One name reaches another** by any number of references. -/
inductive Reaches (g : Grammar) (m : Text) : Text → Prop where
  /-- A name reaches itself. -/
  | self {n : Text} (same : Text.fold m = Text.fold n) : Reaches g m n
  /-- A reference of a name that is reached is reached. -/
  | step {k n : Text} (reached : Reaches g m k) (refers : g.RefersTo k n) :
      Reaches g m n

/-- **A name on a cycle** reaches itself by at least one reference. -/
def OnCycle (g : Grammar) (n : Text) : Prop :=
  ∃ k, g.RefersTo n k ∧ g.Reaches k n

/-- **The productive names.** -/
inductive Productive (g : Grammar) : Text → Prop where
  /-- A name without alternatives expands to nothing. -/
  | undefined {n : Text} (none : g.alternatives n = []) : Productive g n
  /-- A name with an alternative whose references are productive. -/
  | alternative {n : Text} (p : Production) (mem : p ∈ g.alternatives n)
      (references : ∀ r ∈ p.references, Productive g r) : Productive g n

/-- Reference depends on the case foldings of the two names only. -/
theorem refersTo_congr {g : Grammar} {m m' n n' : Text}
    (hm : Text.fold m = Text.fold m') (hn : Text.fold n = Text.fold n') :
    g.RefersTo m n ↔ g.RefersTo m' n' := by
  simp [RefersTo, alternatives_congr g hm, hn]

/-- What is reached from a name that is reached is reached. -/
theorem Reaches.trans {g : Grammar} {m k n : Text} (h : g.Reaches m k)
    (h' : g.Reaches k n) : g.Reaches m n := by
  induction h' with
  | self same =>
    cases h with
    | self same' => exact .self (same'.trans same)
    | step reached refers =>
      exact .step reached ((refersTo_congr rfl same).1 refers)
  | step _ refers ih => exact .step ih refers

end SentenceForge.Grammar

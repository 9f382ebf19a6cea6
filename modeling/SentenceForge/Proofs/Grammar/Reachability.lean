import Mathlib.Data.List.Chain
import SentenceForge.Grammar.Reachability

/-!
# Paths through a grammar

A grammar defines finitely many names, so a path of references through
defined names cannot be long without coming back to a name. That is all
there is to termination here: a path that is longer than there are names
has one on a cycle (`exists_onCycle_of_isChain`), since of names that are
told apart by their case foldings there are no more than are defined
(`length_le_of_distinct`).

A name **leads to** another if it reaches it by at least one reference. A
name on a cycle is one that leads to itself, and unlike a single reference
the relation is transitive, so the names of a path lead to all those behind
them.
-/

namespace SentenceForge.Grammar

variable {g : Grammar}

/-! ## Leading to a name -/

/-- **One name leads to another** by at least one reference. -/
def LeadsTo (g : Grammar) (m n : Text) : Prop :=
  ∃ k, g.RefersTo m k ∧ g.Reaches k n

/-- A name refers to the references of its alternatives, whichever is
chosen. -/
theorem refersTo_of_get {m r : Text} {ps : List Production} (ha : g.alternatives m = ps)
    {i : Fin ps.length} (hr : Symbol.reference r ∈ (ps.get i).body) : g.RefersTo m r := by
  have hmem : ps.get i ∈ g.alternatives m := by
    rw [ha]
    exact List.get_mem ps i
  exact ⟨ps.get i, hmem, r, (Production.mem_references _ r).2 hr, rfl⟩

/-- A name leads to those that it refers to. -/
theorem RefersTo.leadsTo {m n : Text} (h : g.RefersTo m n) : g.LeadsTo m n :=
  ⟨n, h, .self rfl⟩

/-- A name reaches those that it leads to. -/
theorem LeadsTo.reaches {m n : Text} (h : g.LeadsTo m n) : g.Reaches m n := by
  obtain ⟨k, hmk, hkn⟩ := h
  exact Reaches.trans (.step (.self rfl) hmk) hkn

/-- A name leads to what is reached from those that it leads to. -/
theorem LeadsTo.trans_reaches {m k n : Text} (h : g.LeadsTo m k) (h' : g.Reaches k n) :
    g.LeadsTo m n := by
  obtain ⟨j, hmj, hjk⟩ := h
  exact ⟨j, hmj, hjk.trans h'⟩

instance : Trans g.LeadsTo g.LeadsTo g.LeadsTo where
  trans h h' := h.trans_reaches h'.reaches

/-- **What is reached lies among any names that hold the first and are closed
under reference.** -/
theorem Reaches.exists_fold_eq {names : List Text} {m n : Text} (h : g.Reaches m n)
    (first : m ∈ names)
    (closed : ∀ k ∈ names, ∀ p ∈ g.alternatives k, ∀ r ∈ p.references,
      ∃ k' ∈ names, Text.fold r = Text.fold k') : ∃ k ∈ names, Text.fold n = Text.fold k := by
  induction h with
  | self same => exact ⟨m, first, same.symm⟩
  | step _ refers ih =>
    obtain ⟨k, hk, hfold⟩ := ih
    obtain ⟨p, hp, r, hr, hrn⟩ := (refersTo_congr hfold rfl).1 refers
    obtain ⟨k', hk', hrk'⟩ := closed k hk p hp r hr
    exact ⟨k', hk', hrn.symm.trans hrk'⟩

/-! ## Distinct names -/

/-- A name is defined if its case folding is one of those defined. -/
theorem fold_mem_definedNames {n : Text} : Text.fold n ∈ g.definedNames ↔ g.defines n = true :=
  Table.mem_keys g.index (Text.fold n)

/-- **Of names with different case foldings there are no more than are
defined.** -/
theorem length_le_of_distinct {path : List Text} (defined : ∀ n ∈ path, g.defines n = true)
    (distinct : (path.map Text.fold).Nodup) : path.length ≤ g.definedNames.length := by
  have hsubset : path.map Text.fold ⊆ g.definedNames := by
    intro k hk
    obtain ⟨n, hn, rfl⟩ := List.mem_map.1 hk
    exact fold_mem_definedNames.2 (defined n hn)
  rw [← List.length_map Text.fold]
  exact distinct.length_le_of_subset hsubset

/-! ## Paths of references -/

/-- The names of a path lead to those behind them. -/
theorem pairwise_leadsTo {path : List Text} (chain : path.IsChain g.RefersTo) :
    path.Pairwise g.LeadsTo :=
  List.isChain_iff_pairwise.1 (chain.imp fun _ _ h => h.leadsTo)

/-- A path reaches its names from its first. -/
theorem reaches_of_isChain {path : List Text} {m : Text} (chain : path.IsChain g.RefersTo)
    (first : path.head? = some m) : ∀ n ∈ path, g.Reaches m n := by
  obtain ⟨rest, rfl⟩ := List.head?_eq_some_iff.1 first
  intro n hn
  rcases List.mem_cons.1 hn with rfl | hn
  · exact .self rfl
  · exact ((List.pairwise_cons.1 (pairwise_leadsTo chain)).1 n hn).reaches

/-- **A path through more names than are defined goes round in a
circle.** -/
theorem exists_onCycle_of_isChain {path : List Text} (chain : path.IsChain g.RefersTo)
    (defined : ∀ n ∈ path, g.defines n = true)
    (long : g.definedNames.length < path.length) : ∃ n ∈ path, g.OnCycle n := by
  by_contra acyclic
  have hdistinct : (path.map Text.fold).Nodup := by
    rw [List.nodup_iff_pairwise_ne, List.pairwise_map]
    refine (pairwise_leadsTo chain).imp_of_mem fun {m n} hm _ hmn hfold => acyclic ⟨m, hm, ?_⟩
    exact hmn.trans_reaches (.self hfold.symm)
  exact absurd (length_le_of_distinct defined hdistinct) (Nat.not_le.2 long)

end SentenceForge.Grammar

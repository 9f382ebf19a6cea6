import SentenceForge.Proofs.Expansion.Depth
import SentenceForge.Proofs.Grammar.Reachability

/-!
# Going too deep means a cycle

A limit is checked against depth alone, so an expansion that is stopped by
it need not be one that would go on for ever. It is once the limit allows
more levels than there are names: the names above the one that is cut off
are a path of references as long as the limit (`exists_isChain_of_cutOff`),
all of them defined since something was chosen for them, and a path through
more names than are defined comes back to one of them.

The name that is cut off is not itself among these. It may be undefined,
and that is the one level more that a limit has to allow.
-/

namespace SentenceForge.Grammar

variable {σ : Type}

/-- **Above a name that is cut off lies a path of defined names**, one for
each level, that starts from the name that is run. -/
theorem exists_isChain_of_cutOff {g : Grammar} {source : Source σ} {strict : Bool}
    {levels depth : Nat} {name m : Text} {s : σ}
    (h : (g.run source strict levels depth name s).outcome = .error (.cutOff m)) :
    ∃ path : List Text, path.length = levels ∧ (∀ n ∈ path, g.defines n = true)
      ∧ (path ++ [m]).head? = some name ∧ (path ++ [m]).IsChain g.RefersTo := by
  induction levels generalizing depth name s with
  | zero =>
    rw [run_zero] at h
    obtain rfl : name = m := Stop.cutOff.inj (Except.error.inj h)
    exact ⟨[], rfl, List.forall_mem_nil _, rfl, List.isChain_singleton name⟩
  | succ levels ih =>
    cases ha : g.alternatives name with
    | nil =>
      cases strict with
      | true =>
        rw [run_strict_of_undefined source ha] at h
        cases h
      | false =>
        rw [run_lenient_of_undefined source ha] at h
        cases h
    | cons p ps =>
      rw [run_of_defined source strict ha] at h
      obtain ⟨r, s', hr, hstop⟩ := Run.ofBody_outcome_error h
      obtain ⟨path, hlength, hdefined, hfirst, hchain⟩ := ih hstop
      have hname : g.defines name = true := by
        rw [defines_iff, ha]
        exact List.cons_ne_nil p ps
      have hrefers : g.RefersTo name r := refersTo_of_get ha hr
      refine ⟨name :: path, congrArg (· + 1) hlength, List.forall_mem_cons.2 ⟨hname, hdefined⟩,
        rfl, List.isChain_cons.2 ⟨fun n hn => ?_, hchain⟩⟩
      obtain rfl : r = n := Option.some.inj (hfirst.symm.trans hn)
      exact hrefers

/-- **Under a limit of more levels than there are names, going too deep means
a cycle**: some defined name that is reached from the name expanded reaches
itself. So an expansion that can reach no cycle never goes too deep, whatever
the choices. -/
theorem exists_onCycle_of_tooDeep (g : Grammar) (source : Source σ) (settings : Settings)
    {limit : Int} (hlimit : (g.definedNames.length : Int) + 1 ≤ limit) (name : Text) (s : σ) :
    let x := g.expand source { settings with maxDepth := some limit } name s
    (x.TooDeep → ∃ n, g.Reaches name n ∧ g.defines n = true ∧ g.OnCycle n)
    ∧ ((∀ n, g.Reaches name n → ¬ g.OnCycle n) → ¬ x.TooDeep) := by
  intro x
  have hcycle : x.TooDeep → ∃ n, g.Reaches name n ∧ g.defines n = true ∧ g.OnCycle n := by
    intro h
    obtain ⟨m, hm⟩ := (tooDeep_expand_iff rfl).1 h
    obtain ⟨path, hlength, hdefined, hfirst, hchain⟩ := exists_isChain_of_cutOff hm
    have hlong : g.definedNames.length < path.length := by
      rw [hlength]
      show g.definedNames.length < limit.toNat
      omega
    obtain ⟨n, hn, hcircle⟩ := exists_onCycle_of_isChain hchain.left_of_append hdefined hlong
    have hreached := reaches_of_isChain hchain hfirst n (List.mem_append_left [m] hn)
    exact ⟨n, hreached, hdefined n hn, hcircle⟩
  refine ⟨hcycle, fun acyclic h => ?_⟩
  obtain ⟨n, hreached, -, hcircle⟩ := hcycle h
  exact acyclic n hreached hcircle

/-- Two names that refer to each other, under the least limit that allows
more levels than there are names. -/
theorem exists_onCycle_of_tooDeep_of_two :
    let g := ofProductions startName
      [.ofText startName "a <Mid>".toList, .ofText "<mid>".toList "<START> b".toList]
    (g.definedNames.length : Int) + 1 ≤ 3
      ∧ (g.expand Random.Chooser.source { maxDepth := some 3 } startName .first).TooDeep
      ∧ ∃ n, g.Reaches startName n ∧ g.defines n = true ∧ g.OnCycle n := by
  intro g
  have hlimit : (g.definedNames.length : Int) + 1 ≤ 3 := by decide
  have hdeep : (g.expand Random.Chooser.source { maxDepth := some 3 } startName .first).TooDeep :=
    ⟨"<Mid>".toList, 3, by rfl⟩
  exact ⟨hlimit, hdeep,
    (exists_onCycle_of_tooDeep g Random.Chooser.source {} hlimit startName .first).1 hdeep⟩

/-- Two names without a cycle go too deep for a limit of two, since the name
past them takes a level although it is undefined. -/
example :
    let g := ofProductions startName
      [.ofText startName "a <mid>".toList, .ofText "<mid>".toList "<gone> b".toList]
    g.definedNames.length = 2
      ∧ (g.expand Random.Chooser.source { maxDepth := some 2 } startName .first).result
        = .error (.grammar (.tooDeep "<gone>".toList 2)) := ⟨by rfl, by rfl⟩

end SentenceForge.Grammar

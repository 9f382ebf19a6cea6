import Mathlib.Algebra.Ring.GeomSum
import SentenceForge.Proofs.Sentence.Outcome

/-!
# The work of an expansion

On a cyclic grammar there is nothing that gets smaller from a name to its
references but the levels that are left. A limit is therefore the only bound
there is on how long an expansion goes on, and it bounds more than the depth:
a body with so many references takes so many names one level down, so there
are no more choices at a level than a power of that number, and no more in
all than the powers add up to (`length_choices_run_le`).

Nothing is said of how a run ends. One that is stopped, by an undefined name
or by the limit, is not followed by the runs of the references behind it, and
so makes fewer choices and not more.
-/

namespace SentenceForge

namespace Run

variable {σ : Type}

/-- **Two runs in a row make no more choices than both**, and only the first
ones if it is stopped. -/
theorem length_choices_andThen_le {r : Run σ} {next : σ → Run σ} {m n : Nat}
    (hr : r.choices.length ≤ m) (hnext : ∀ s, (next s).choices.length ≤ n) :
    (r.andThen next).choices.length ≤ m + n := by
  cases h : r.outcome with
  | error stop =>
    rw [andThen_of_error h]
    exact Nat.le_add_right_of_le hr
  | ok ts =>
    rw [andThen_of_ok h, choices, List.filterMap_append, List.length_append]
    exact Nat.add_le_add hr (hnext r.source)

/-- **A body makes no more choices than its references may**, each as many as
any of them. -/
theorem length_choices_ofBody_le {expand : Text → σ → Run σ} {n : Nat}
    (h : ∀ name s, (expand name s).choices.length ≤ n) (p : Production) (s : σ) :
    (ofBody expand p.body s).choices.length ≤ p.references.length * n := by
  obtain ⟨name, body⟩ := p
  induction body generalizing s with
  | nil => exact Nat.zero_le _
  | cons x body ih =>
    cases x with
    | terminal t => exact ih s
    | reference r =>
      have hcons : (⟨name, .reference r :: body⟩ : Production).references
          = r :: (⟨name, body⟩ : Production).references := rfl
      rw [hcons, List.length_cons, Nat.succ_mul, Nat.add_comm]
      exact length_choices_andThen_le (h r s) ih

end Run

namespace Grammar

variable {σ : Type}

/-- **A run makes no more choices than the powers of the number of references
add up to**, one power for each of its levels. -/
theorem length_choices_run_le {g : Grammar} {b : Nat}
    (h : ∀ p ∈ g.productions, p.references.length ≤ b) (source : Source σ) (strict : Bool)
    (levels depth : Nat) (name : Text) (s : σ) :
    (g.run source strict levels depth name s).choices.length
      ≤ ∑ i ∈ Finset.range levels, b ^ i := by
  induction levels generalizing depth name s with
  | zero => exact Nat.le_refl 0
  | succ levels ih =>
    cases ha : g.alternatives name with
    | nil =>
      cases strict with
      | true =>
        rw [run_strict_of_undefined source ha]
        exact Nat.zero_le _
      | false =>
        rw [run_lenient_of_undefined source ha]
        exact Nat.zero_le _
    | cons p ps =>
      -- the choice made here is the first power, and each reference may make the rest
      let drawn := source.draw ps.length s
      let chosen := (p :: ps).get drawn.1
      let below := ∑ i ∈ Finset.range levels, b ^ i
      have hmem : chosen ∈ g.alternatives name := by
        rw [ha]
        exact List.get_mem (p :: ps) drawn.1
      have hchosen : chosen.references.length ≤ b := h chosen (mem_of_mem_alternatives hmem)
      have hbody : (Run.ofBody (g.run source strict levels (depth + 1)) chosen.body
          drawn.2).choices.length ≤ b * below :=
        Nat.le_trans (Run.length_choices_ofBody_le (ih (depth + 1)) chosen drawn.2)
          (Nat.mul_le_mul_right below hchosen)
      rw [run_of_defined source strict ha, geom_sum_succ]
      exact Nat.succ_le_succ hbody

/-- **A depth limit bounds the work of an expansion**, on every grammar and
whatever is chosen. It ends in a text, at an undefined name if it is strict or
at the limit, and it makes no more choices than the powers of the number of
references add up to, one power for each level that the limit allows. A limit
that is not positive allows none. -/
theorem length_choices_expand_le {g : Grammar} {b : Nat}
    (h : ∀ p ∈ g.productions, p.references.length ≤ b) (source : Source σ) (settings : Settings)
    (limit : Int) (name : Text) (s : σ) :
    let x := g.expand source { settings with maxDepth := some limit } name s
    ((∃ raw, x.result = .ok raw)
        ∨ (settings.strict = true ∧ ∃ n, x.result = .error (.grammar (.undefined n)))
        ∨ ∃ n, x.result = .error (.grammar (.tooDeep n limit)))
      ∧ x.choices.length ≤ ∑ i ∈ Finset.range limit.toNat, b ^ i
      ∧ (limit ≤ 0 → x.choices = []) := by
  intro x
  have hwork : x.choices.length ≤ ∑ i ∈ Finset.range limit.toNat, b ^ i :=
    g.length_choices_run_le h source settings.strict limit.toNat 0 name s
  refine ⟨?_, hwork, fun hlimit => ?_⟩
  · have hend := g.expand_permitted source { settings with maxDepth := some limit } name s
    revert hend
    show Settings.Permits _ x.result → _
    cases x.result with
    | ok raw => exact fun _ => .inl ⟨raw, rfl⟩
    | error e =>
      intro hend
      cases hend with
      | undefined n strict => exact .inr (.inl ⟨strict, n, rfl⟩)
      | tooDeep n limit' limited =>
        obtain rfl := Option.some.inj limited
        exact .inr (.inr ⟨n, rfl⟩)
      | exhausted n unlimited => cases unlimited
  · rw [Int.toNat_eq_zero.2 hlimit] at hwork
    exact List.length_eq_zero_iff.1 (Nat.le_zero.1 hwork)

/-- A name that refers to itself twice or not at all makes as many choices as
three levels allow and ends, and under a limit of two it goes too deep. -/
theorem length_choices_expand_le_of_cyclic :
    let g := ofProductions startName
      [.ofText startName "<start> a <START>".toList, .ofText startName "".toList]
    let script := Random.Chooser.ofScript [0, 0, 1, 1, 0, 1, 1]
    let within (limit : Int) :=
      g.expand Random.Chooser.source { maxDepth := some limit } startName script
    (∀ p ∈ g.productions, p.references.length ≤ 2)
      ∧ (within 3).result = .ok "a a a ".toList
      ∧ (within 3).choices.length = ∑ i ∈ Finset.range 3, 2 ^ i
      ∧ (within 2).result = .error (.grammar (.tooDeep startName 2))
      ∧ (within 2).choices.length ≤ ∑ i ∈ Finset.range 2, 2 ^ i
      ∧ (within 0).choices = [] := by
  intro g script within
  have hreferences : ∀ p ∈ g.productions, p.references.length ≤ 2 := by decide
  have hwork (limit : Int) := length_choices_expand_le hreferences Random.Chooser.source {} limit
    startName script
  exact ⟨hreferences, by rfl, by rfl, by rfl, (hwork 2).2.1, (hwork 0).2.2 (by decide)⟩

end Grammar

end SentenceForge

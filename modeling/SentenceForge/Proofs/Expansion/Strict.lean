import SentenceForge.Proofs.Expansion.Barrier
import SentenceForge.Proofs.Grammar.Reachability

/-!
# Strict and lenient

A lenient run passes over a name without alternatives, and a strict one is
refused there. Up to the first such name the two cannot be told apart: they
reach the same names, ask their source the same questions and are stopped
by the same depths. So the strict run is the lenient one as long as that
passes nothing over, and otherwise the lenient one up to the first name
that it passes over.

`Run.Tightened` is that relation between two runs. Strictness is a barrier in
the way of the lenient run (`Barrier.atUndefined`), and so the relation holds
of the runs of a name at every level.
-/

namespace SentenceForge

/-! ## A run made strict -/

namespace Run

variable {σ : Type}

/-- **What strictness makes of a run**: nothing, if no name is passed over in
it, and otherwise the run up to the first such name, which is refused. Of
that name `P` holds. -/
inductive Tightened (P : Text → Prop) : (lenient strict : Run σ) → Prop where
  /-- No name is passed over. -/
  | same {r : Run σ} (silent : r.notices = []) : Tightened P r r
  /-- The first name that is passed over is refused. -/
  | refused {r : Run σ} (before after : List Visit) (depth : Nat) (name : Text) (s : σ)
      (visits : r.visits = before ++ ⟨depth, name, .skipped⟩ :: after)
      (silent : before.filterMap Visit.notice? = []) (undefined : P name) :
      Tightened P r ⟨before ++ [⟨depth, name, .refused⟩], .error (.refused name), s⟩

end Run

/-- **The barrier of strictness**, at a name that is passed over. Of the names
it stops at `P` holds. -/
def Barrier.atUndefined (P : Text → Prop) : Barrier :=
  ⟨fun v => v.notice? = none, fun v => v.step = .skipped ∧ P v.name, .refused, .refused⟩

/-- A run with the barrier of strictness in its way is made strict. -/
theorem Run.Tightened.of_barred {σ : Type} {P : Text → Prop} {lenient strict : Run σ}
    (h : Barred (.atUndefined P) lenient strict) : Tightened P lenient strict := by
  cases h with
  | same passes => exact .same (List.filterMap_eq_nil_iff.2 passes)
  | stopped before after v s visits passes stops =>
    obtain ⟨depth, name, step⟩ := v
    obtain ⟨rfl, undefined⟩ : step = .skipped ∧ P name := stops
    exact .refused before after depth name s visits (List.filterMap_eq_nil_iff.2 passes) undefined

/-! ## The expansions -/

/-- A stop is reported as an undefined name exactly if a name was refused. -/
theorem Settings.errorOf_eq_undefined_iff {settings : Settings} {stop : Stop} {m : Text} :
    settings.errorOf stop = .grammar (.undefined m) ↔ stop = .refused m := by
  unfold errorOf
  cases stop with
  | refused n => simp
  | cutOff n => cases settings.maxDepth <;> simp

namespace Grammar

variable {σ : Type}

/-- **Strictness is a barrier**, and what it stops at is a name without
alternatives that is reached from wherever the name that is run is. -/
theorem run_barred_atUndefined (g : Grammar) (source : Source σ) {root : Text}
    (levels depth : Nat) {name : Text} (h : g.Reaches root name) (s : σ) :
    Run.Barred (.atUndefined fun n => g.alternatives n = [] ∧ g.Reaches root n)
      (g.run source false levels depth name s) (g.run source true levels depth name s) := by
  -- `root` stays fixed, and the induction carries that `name` is reached from it
  induction levels generalizing depth name s with
  | zero => exact .same (List.forall_mem_singleton.2 rfl)
  | succ levels ih =>
    cases ha : g.alternatives name with
    | nil =>
      rw [run_lenient_of_undefined source ha, run_strict_of_undefined source ha]
      exact .stopped [] [] ⟨depth, name, .skipped⟩ s rfl (List.forall_mem_nil _) ⟨rfl, ha, h⟩
    | cons p ps =>
      rw [run_of_defined source false ha, run_of_defined source true ha]
      exact .chose rfl (.ofBody _ (fun n hn s =>
        ih (depth + 1) (.step h (refersTo_of_get ha hn)) s) _)

/-- **The strict run of a name is its lenient run made strict**, and what it
is refused for is a name without alternatives that is reached from wherever
the name itself is. -/
theorem run_tightened (g : Grammar) (source : Source σ) {root : Text} (levels depth : Nat)
    {name : Text} (h : g.Reaches root name) (s : σ) :
    Run.Tightened (fun n => g.alternatives n = [] ∧ g.Reaches root n)
      (g.run source false levels depth name s) (g.run source true levels depth name s) :=
  .of_barred (g.run_barred_atUndefined source levels depth h s)

/-- **Strictness only stops an expansion at the first undefined name.** A
lenient expansion that passes nothing over is the strict one. Otherwise the
strict one is stopped for the first name that the lenient one passes over, a
name without alternatives that is reached from the name expanded; it has
made the choices that the lenient one made before it came there, and its
source has answered no more than these. So no expansion is stopped for an
undefined name if all names that it can reach are defined. -/
theorem expand_strict_of_lenient (g : Grammar) (source : Source σ) (settings : Settings)
    (name : Text) (s : σ) :
    let lenient := g.expand source { settings with strict := false } name s
    let strict := g.expand source { settings with strict := true } name s
    (lenient.notices = [] → strict = lenient)
    ∧ (∀ notice notices, lenient.notices = notice :: notices →
      ∃ n, notice = .skipped n
        ∧ strict.result = .error (.grammar (.undefined n))
        ∧ g.alternatives n = [] ∧ g.Reaches name n
        ∧ ∃ before depth after,
          (g.run source false settings.levels 0 name s).visits
              = before ++ ⟨depth, n, .skipped⟩ :: after
            ∧ before.filterMap Visit.notice? = []
            ∧ strict.notices = []
            ∧ strict.choices = before.filterMap Visit.choice?
            ∧ lenient.choices = strict.choices ++ after.filterMap Visit.choice?
            ∧ source.Answers s strict.choices strict.source)
    ∧ ((∀ n, g.Reaches name n → g.alternatives n ≠ []) →
      ∀ m, strict.result ≠ .error (.grammar (.undefined m))) := by
  intro lenient strict
  have htight := run_tightened g source settings.levels 0 (.self rfl : g.Reaches name name) s
  have hanswers : source.Answers s strict.choices strict.source :=
    answers_run g source true settings.levels 0 name s
  -- the two runs are named, since `Tightened` is taken apart by what they are
  generalize hL : g.run source false settings.levels 0 name s = L at htight
  generalize hS : g.run source true settings.levels 0 name s = S at htight
  have hlenient : lenient = ⟨L.notices, L.choices,
      (L.outcome.mapError settings.errorOf).map rawText, L.source⟩ := by
    rw [← hL]
    rfl
  have hstrict : strict = ⟨S.notices, S.choices,
      (S.outcome.mapError settings.errorOf).map rawText, S.source⟩ := by
    rw [← hS]
    rfl
  cases htight with
  | same silent =>
    refine ⟨fun _ => hstrict.trans hlenient.symm, fun notice notices h => ?_, fun _ m hm => ?_⟩
    · rw [hlenient] at h
      exact absurd (silent.symm.trans h).symm (List.cons_ne_nil _ _)
    · obtain ⟨stop, hstop, herror⟩ := expand_result_error_iff.1 hm
      obtain rfl := Settings.errorOf_eq_undefined_iff.1 herror
      have houtcome : (g.run source true settings.levels 0 name s).outcome
          = .error (.refused m) := hstop
      rw [hS, ← hL] at houtcome
      exact run_lenient_outcome_ne_refused g source _ 0 name s m houtcome
  | refused before after depth n s' visits silent undefined =>
    have hnotices : lenient.notices = .skipped n :: after.filterMap Visit.notice? := by
      rw [hlenient]
      show L.visits.filterMap Visit.notice? = _
      rw [visits, List.filterMap_append, silent]
      rfl
    have hchoices : strict.choices = before.filterMap Visit.choice? := by
      rw [hstrict]
      show (before ++ [_]).filterMap Visit.choice? = _
      rw [List.filterMap_append]
      exact List.append_nil _
    have hresult : strict.result = .error (.grammar (.undefined n)) := by
      rw [hstrict]
      rfl
    refine ⟨fun h => ?_, fun notice notices h => ?_, fun h => ?_⟩
    · exact absurd (hnotices.symm.trans h) (List.cons_ne_nil _ _)
    · obtain ⟨rfl, -⟩ := List.cons.inj (hnotices.symm.trans h)
      refine ⟨n, rfl, hresult, undefined.1, undefined.2, before, depth, after, visits, silent,
        ?_, hchoices, ?_, hanswers⟩
      · rw [hstrict]
        show (before ++ [_]).filterMap Visit.notice? = []
        rw [List.filterMap_append, silent]
        rfl
      · rw [hchoices, hlenient]
        show L.visits.filterMap Visit.choice? = _
        rw [visits, List.filterMap_append]
        rfl
    · exact absurd undefined.1 (h n undefined.2)

/-- A name undefined two references down, behind a choice and in front of a
cycle: the lenient expansion passes it over and is then stopped by its limit,
the strict one is stopped there. -/
theorem expand_strict_of_lenient_of_cycle :
    let g := ofProductions startName
      [.ofText startName "a <mid> <gone>".toList, .ofText "<mid>".toList "b <Lost> <start>".toList]
    let lenient := g.expand Random.Chooser.source { maxDepth := some 3 } startName .first
    let strict := g.expand Random.Chooser.source { strict := true, maxDepth := some 3 } startName
      .first
    lenient.notices = [.skipped "<Lost>".toList]
      ∧ lenient.result = .error (.grammar (.tooDeep "<mid>".toList 3))
      ∧ ∃ n, Notice.skipped "<Lost>".toList = .skipped n
        ∧ strict.result = .error (.grammar (.undefined n))
        ∧ g.alternatives n = [] ∧ g.Reaches startName n
        ∧ ∃ before depth after,
          (g.run Random.Chooser.source false 3 0 startName .first).visits
              = before ++ ⟨depth, n, .skipped⟩ :: after
            ∧ before.filterMap Visit.notice? = []
            ∧ strict.notices = []
            ∧ strict.choices = before.filterMap Visit.choice?
            ∧ lenient.choices = strict.choices ++ after.filterMap Visit.choice?
            ∧ Random.Chooser.source.Answers .first strict.choices strict.source := by
  intro g lenient strict
  have hnotices : lenient.notices = [.skipped "<Lost>".toList] := by rfl
  exact ⟨hnotices, by rfl, (expand_strict_of_lenient g Random.Chooser.source
    { maxDepth := some 3 } startName .first).2.1 _ _ hnotices⟩

end Grammar

end SentenceForge

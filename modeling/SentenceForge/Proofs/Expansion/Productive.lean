import SentenceForge.Proofs.Expansion.Depth
import SentenceForge.Proofs.Expansion.Derivation
import SentenceForge.Proofs.Grammar.Reachability

/-!
# Sentences of productive names

A name that is not productive has no derivation, and since an expansion
that ends by itself has followed one, every lenient expansion of it is
stopped by its limit. A productive name has a derivation, and what is left
to say is how high a limit has to be for an expansion to follow one.

The least height at which a name derives is what counts. Below a name that
derives at some height and no lower, one of its references derives at the
height one less and no lower, and so on down. The names met on the way have
different least heights, hence different case foldings, and all but the
last are defined: so the height is at most one more than there are names
(`derivesWithin_of_productive`).
-/

namespace SentenceForge

/-- The references of a body's derivation have derivations no higher. -/
theorem BodyDerivation.exists_of_mem {g : Grammar} {body : List Symbol}
    (b : BodyDerivation g body) {r : Text} (h : Symbol.reference r ∈ body) :
    ∃ t : Derivation g r, t.height ≤ b.height := by
  induction body with
  | nil => exact absurd h List.not_mem_nil
  | cons x body ih =>
    cases b with
    | terminal token rest => exact ih rest ((List.mem_cons.1 h).resolve_left Symbol.noConfusion)
    | reference name here rest =>
      rcases List.mem_cons.1 h with heq | hmem
      · obtain rfl := Symbol.reference.inj heq
        exact ⟨here, Nat.le_max_left _ _⟩
      · obtain ⟨t, ht⟩ := ih rest hmem
        exact ⟨t, Nat.le_trans ht (Nat.le_max_right _ _)⟩

namespace Grammar

/-! ## Derivations within a height -/

/-- **A name derives within a height** if it has a derivation that is no
higher. -/
def DerivesWithin (g : Grammar) (height : Nat) (n : Text) : Prop :=
  ∃ t : Derivation g n, t.height ≤ height

variable {g : Grammar}

/-- A body derives within the height that its references do. -/
theorem exists_bodyDerivation {height : Nat} {body : List Symbol}
    (h : ∀ r, Symbol.reference r ∈ body → g.DerivesWithin height r) :
    ∃ b : BodyDerivation g body, b.height ≤ height := by
  induction body with
  | nil => exact ⟨.done, Nat.zero_le _⟩
  | cons x body ih =>
    obtain ⟨rest, hrest⟩ := ih fun r hr => h r (List.mem_cons_of_mem x hr)
    cases x with
    | terminal token => exact ⟨.terminal token rest, hrest⟩
    | reference name =>
      obtain ⟨here, hhere⟩ := h name List.mem_cons_self
      exact ⟨.reference name here rest, Nat.max_le.2 ⟨hhere, hrest⟩⟩

/-- No name derives within no height. -/
theorem not_derivesWithin_zero {n : Text} : ¬ g.DerivesWithin 0 n :=
  fun ⟨t, ht⟩ => absurd t.height_pos (Nat.not_lt.2 ht)

/-- **A name derives within one more** than the references of one of its
alternatives, or if it has none. -/
theorem derivesWithin_succ_iff {height : Nat} {n : Text} :
    g.DerivesWithin (height + 1) n
      ↔ g.alternatives n = []
        ∨ ∃ p ∈ g.alternatives n, ∀ r ∈ p.references, g.DerivesWithin height r := by
  constructor
  · rintro ⟨t, ht⟩
    cases t with
    | leaf _ undefined => exact .inl undefined
    | node _ choice body =>
      refine .inr ⟨_, List.get_mem _ choice, fun r hr => ?_⟩
      obtain ⟨t, hle⟩ := body.exists_of_mem ((Production.mem_references _ r).1 hr)
      exact ⟨t, Nat.le_trans hle (Nat.le_of_succ_le_succ ht)⟩
  · rintro (undefined | ⟨p, hp, h⟩)
    · exact ⟨.leaf n undefined, Nat.le_add_left 1 height⟩
    · obtain ⟨choice, rfl⟩ := List.get_of_mem hp
      obtain ⟨body, hbody⟩ := exists_bodyDerivation fun r hr =>
        h r ((Production.mem_references _ r).2 hr)
      exact ⟨.node n choice body, Nat.succ_le_succ hbody⟩

/-- A name derives within every greater height. -/
theorem DerivesWithin.mono {height height' : Nat} {n : Text} (h : g.DerivesWithin height n)
    (hle : height ≤ height') : g.DerivesWithin height' n := by
  obtain ⟨t, ht⟩ := h
  exact ⟨t, Nat.le_trans ht hle⟩

/-- A name derives within the same heights in every spelling. -/
theorem DerivesWithin.of_fold_eq {height : Nat} {m n : Text} (h : g.DerivesWithin height m)
    (same : Text.fold m = Text.fold n) : g.DerivesWithin height n := by
  cases height with
  | zero => exact absurd h not_derivesWithin_zero
  | succ height =>
    rw [derivesWithin_succ_iff, ← alternatives_congr g same]
    exact derivesWithin_succ_iff.1 h

/-! ## The least height -/

/-- **A name that derives at some height and no lower has that many names
below it**, less one and itself among them: they are defined, and no two of
them have the same case folding. -/
theorem exists_distinct_of_derivesWithin {height : Nat} {n : Text}
    (h : g.DerivesWithin (height + 1) n) (least : ¬ g.DerivesWithin height n) :
    ∃ path : List Text, path.length = height
      ∧ (∀ m ∈ path, g.defines m = true ∧ g.DerivesWithin (height + 1) m)
      ∧ (path.map Text.fold).Nodup := by
  induction height generalizing n with
  | zero => exact ⟨[], rfl, List.forall_mem_nil _, List.nodup_nil⟩
  | succ height ih =>
    rcases derivesWithin_succ_iff.1 h with undefined | ⟨p, hp, hrefs⟩
    · exact absurd (derivesWithin_succ_iff.2 (.inl undefined)) least
    -- a reference that derives no lower, or `n` would derive lower itself
    obtain ⟨r, hr, hleast⟩ : ∃ r ∈ p.references, ¬ g.DerivesWithin height r := by
      by_contra hlower
      refine least (derivesWithin_succ_iff.2 (.inr ⟨p, hp, fun r hr => ?_⟩))
      by_contra hleast
      exact hlower ⟨r, hr, hleast⟩
    obtain ⟨path, hlength, hpath, hdistinct⟩ := ih (hrefs r hr) hleast
    have hdefined : g.defines n = true := (defines_iff g n).2 (List.ne_nil_of_mem hp)
    refine ⟨n :: path, congrArg (· + 1) hlength, List.forall_mem_cons.2
      ⟨⟨hdefined, h⟩, fun m hm => ⟨(hpath m hm).1, (hpath m hm).2.mono (Nat.le_succ _)⟩⟩,
      List.nodup_cons.2 ⟨fun hmem => ?_, hdistinct⟩⟩
    -- the names below derive where `n` does not
    obtain ⟨m, hm, hfold⟩ := List.mem_map.1 hmem
    exact least ((hpath m hm).2.of_fold_eq hfold)

/-- **A productive name derives within one more than there are names.** -/
theorem derivesWithin_of_productive {n : Text} (h : g.Productive n) :
    g.DerivesWithin (g.definedNames.length + 1) n := by
  have hlower : ∀ height, g.DerivesWithin height n →
      g.DerivesWithin (g.definedNames.length + 1) n := by
    intro height
    induction height with
    | zero => exact fun h => absurd h not_derivesWithin_zero
    | succ height ih =>
      intro h
      by_cases hleast : g.DerivesWithin height n
      · exact ih hleast
      · obtain ⟨path, rfl, hpath, hdistinct⟩ := exists_distinct_of_derivesWithin h hleast
        have hle := length_le_of_distinct (fun m hm => (hpath m hm).1) hdistinct
        exact h.mono (Nat.succ_le_succ hle)
  obtain ⟨t⟩ := (nonempty_derivation_iff g n).2 h
  exact hlower t.height ⟨t, Nat.le_refl _⟩

/-! ## Expansions -/

/-- **Productive names and no others can be expanded.** A lenient expansion
of a name that is not productive goes too deep under every limit and with
every source. One of a productive name says something under every limit of
more levels than there are names, if the right choices are made: there is a
script that makes them, each of its indices as it is and once. -/
theorem expand_of_productive (g : Grammar) (name : Text) :
    (¬ g.Productive name → ∀ (σ : Type) (source : Source σ) (limit : Int) (s : σ),
      (g.expand source { maxDepth := some limit } name s).TooDeep)
    ∧ (g.Productive name → ∀ limit : Int, (g.definedNames.length : Int) + 1 ≤ limit →
      ∃ (indices : List Nat) (raw : Text),
        let x := g.expand Random.Chooser.source { maxDepth := some limit } name
          (.ofScript (indices.map fun i : Nat => (i : Int)))
        x.result = .ok raw ∧ x.choices.map Choice.index = indices) := by
  constructor
  · intro unproductive σ source limit s
    rw [tooDeep_expand_iff rfl]
    cases h : (g.run source false limit.toNat 0 name s).outcome with
    | ok ts =>
      obtain ⟨t, -⟩ := exists_follows source false limit.toNat 0 name s ts h
      exact absurd t.productive unproductive
    | error stop =>
      cases stop with
      | refused m => exact absurd h (run_lenient_outcome_ne_refused g source _ 0 name s m)
      | cutOff m => exact ⟨m, h⟩
  · intro productive limit hlimit
    obtain ⟨t, ht⟩ := derivesWithin_of_productive productive
    have hlevels : t.height ≤ Settings.levels { maxDepth := some limit } := by
      show t.height ≤ limit.toNat
      omega
    have hfollows := t.run_follows _ 0 _ _ hlevels
      (Random.Chooser.answers_script t.valid_choices [])
    have hexpand := expand_of_follows { maxDepth := some limit } hfollows
    refine ⟨t.choices.map Choice.index, rawText t.terminals, ?_⟩
    rw [List.map_map]
    exact ⟨congrArg Generation.result hexpand,
      congrArg (fun x => x.choices.map Choice.index) hexpand⟩

/-- A name all of whose bodies refer to it is not productive. -/
theorem not_productive_of_refersToSelf {name : Text} (hne : g.alternatives name ≠ [])
    (h : ∀ p ∈ g.alternatives name, ∃ r ∈ p.references, Text.fold r = Text.fold name) :
    ¬ g.Productive name := by
  have hother : ∀ n, g.Productive n → Text.fold n ≠ Text.fold name := by
    intro n hn
    induction hn with
    | undefined none =>
      intro same
      rw [alternatives_congr g same] at none
      exact hne none
    | alternative p mem _ ih =>
      intro same
      rw [alternatives_congr g same] at mem
      obtain ⟨r, hr, hself⟩ := h p mem
      exact ih r hr hself
  exact fun hname => hother name hname rfl

/-- A start that leads into a loop by its first body and past an undefined
name by its second, under the least limit that allows more levels than
there are names. -/
theorem expand_of_productive_of_detour :
    let g := ofProductions startName
      [.ofText startName "<loop>".toList, .ofText startName "a <mid>".toList,
        .ofText "<mid>".toList "b <gone>".toList, .ofText "<loop>".toList "c <Loop>".toList]
    ¬ g.Productive "<loop>".toList
      ∧ (g.expand Random.Chooser.source { maxDepth := some 9 } "<loop>".toList .last).TooDeep
      ∧ g.Productive startName ∧ (g.definedNames.length : Int) + 1 ≤ 4
      ∧ ∃ (indices : List Nat) (raw : Text),
        let x := g.expand Random.Chooser.source { maxDepth := some 4 } startName
          (.ofScript (indices.map fun i : Nat => (i : Int)))
        x.result = .ok raw ∧ x.choices.map Choice.index = indices := by
  intro g
  have hloop : g.alternatives "<loop>".toList
      = [.ofText "<loop>".toList "c <Loop>".toList] := by rfl
  have unproductive : ¬ g.Productive "<loop>".toList := by
    refine not_productive_of_refersToSelf ?_ fun p hp => ?_
    · rw [hloop]
      exact List.cons_ne_nil _ _
    · rw [hloop, List.mem_singleton] at hp
      exact ⟨"<Loop>".toList, hp ▸ by decide, by decide⟩
  have productive : g.Productive startName := by
    have hrun : (g.run Random.Chooser.source false 3 0 startName (.ofScript [1, 0])).outcome
        = .ok ["a".toList, "b".toList] := by rfl
    obtain ⟨t, -⟩ := exists_follows _ _ _ _ _ _ _ hrun
    exact t.productive
  have hlimit : (g.definedNames.length : Int) + 1 ≤ 4 := by decide
  have hdeep := (expand_of_productive g "<loop>".toList).1 unproductive Random.Chooser
    Random.Chooser.source 9 .last
  exact ⟨unproductive, hdeep, productive, hlimit,
    (expand_of_productive g startName).2 productive 4 hlimit⟩

end Grammar

end SentenceForge

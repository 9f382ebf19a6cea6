import SentenceForge.Proofs.Expansion.Barrier

/-!
# The depth limit

A limit only ends a run. Until a name lies at the limit, a run cannot tell
which limit it is under: it asks the same questions and is given the same
answers as under any other. So of two runs with different levels the one
with fewer is the other one, as long as that stays above its last level,
and otherwise the other one up to the first name that does not.

This is a barrier (`Barrier.atDepth`), and what it leaves to be said of a run
is how deep it goes (`Run.nesting`): a number of levels cuts a run off
exactly if the run goes as deep as they are many (`Grammar.run_cutOff_iff`).
The name at that depth need not be defined, since a name is checked before
it is looked up.
-/

namespace SentenceForge

/-- **An expansion goes too deep** if it is stopped by its depth limit. -/
def Generation.TooDeep {σ α : Type} (x : Generation σ α) : Prop :=
  ∃ name limit, x.result = .error (.grammar (.tooDeep name limit))

namespace Run

variable {σ : Type}

/-- **How deep a run goes**: the greatest depth of a name that it
reaches. -/
def nesting (r : Run σ) : Nat := (r.visits.map Visit.depth).max?.getD 0

/-- A run goes as deep as a name that it reaches lies. -/
theorem le_nesting_iff {r : Run σ} (hne : r.visits ≠ []) {bound : Nat} :
    bound ≤ r.nesting ↔ ∃ v ∈ r.visits, bound ≤ v.depth := by
  have hmap : r.visits.map Visit.depth ≠ [] := mt List.map_eq_nil_iff.1 hne
  constructor
  · intro h
    obtain ⟨deepest, hdeepest⟩ := Option.isSome_iff_exists.1 (List.isSome_max?_of_ne_nil hmap)
    obtain ⟨v, hv, rfl⟩ := List.mem_map.1 (List.max?_mem hdeepest)
    rw [nesting, hdeepest] at h
    exact ⟨v, hv, h⟩
  · rintro ⟨v, hv, h⟩
    exact Nat.le_trans h (List.le_max?_getD_of_mem (List.mem_map_of_mem hv))

end Run

/-! ## A run that is cut off -/

/-- **The barrier at a depth**, where a name is cut off whatever would happen
there. -/
def Barrier.atDepth (bound : Nat) : Barrier :=
  ⟨fun v => v.depth < bound, fun v => v.depth = bound, .cutOff, .cutOff⟩

namespace Run.Barred

variable {σ : Type} {bound : Nat} {deep shallow : Run σ}

/-- A run that is not cut off is the deeper one. -/
theorem eq_of_uncut (h : Barred (.atDepth bound) deep shallow)
    (uncut : ∀ n, shallow.outcome ≠ .error (.cutOff n)) : shallow = deep := by
  cases h with
  | same passes => rfl
  | stopped before after v s visits passes stops => exact absurd rfl (uncut v.name)

/-- **A run is cut off exactly if the deeper one goes as deep as the
limit**, if that is not cut off itself. -/
theorem cutOff_iff (h : Barred (.atDepth bound) deep shallow) (hne : deep.visits ≠ [])
    (uncut : ∀ n, deep.outcome ≠ .error (.cutOff n)) :
    (∃ n, shallow.outcome = .error (.cutOff n)) ↔ bound ≤ deep.nesting := by
  rw [le_nesting_iff hne]
  cases h with
  | same passes =>
    constructor
    · exact fun ⟨n, hn⟩ => absurd hn (uncut n)
    · exact fun ⟨v, hv, hle⟩ => absurd (passes v hv) (Nat.not_lt.2 hle)
  | stopped before after v s visits passes stops =>
    have hmem : v ∈ deep.visits := by
      rw [visits]
      exact List.mem_append_right before List.mem_cons_self
    exact ⟨fun _ => ⟨v, hmem, Nat.le_of_eq stops.symm⟩, fun _ => ⟨v.name, rfl⟩⟩

end Run.Barred

namespace Grammar

variable {σ : Type}

/-- The first name that a run reaches is the name that is run. -/
theorem exists_visits_run (g : Grammar) (source : Source σ) (strict : Bool) (levels depth : Nat)
    (name : Text) (s : σ) :
    ∃ step after,
      (g.run source strict levels depth name s).visits = ⟨depth, name, step⟩ :: after := by
  cases levels with
  | zero => exact ⟨_, _, rfl⟩
  | succ levels =>
    cases ha : g.alternatives name with
    | nil =>
      cases strict with
      | true => exact ⟨_, _, by rw [run_strict_of_undefined source ha]⟩
      | false => exact ⟨_, _, by rw [run_lenient_of_undefined source ha]⟩
    | cons p ps => exact ⟨_, _, by rw [run_of_defined source strict ha]⟩

/-- **Fewer levels only cut a run off.** -/
theorem run_barred_atDepth (g : Grammar) (source : Source σ) (strict : Bool) {levels levels' : Nat}
    (hle : levels ≤ levels') (depth : Nat) (name : Text) (s : σ) :
    Run.Barred (.atDepth (depth + levels)) (g.run source strict levels' depth name s)
      (g.run source strict levels depth name s) := by
  -- the depth of the barrier stays what it is while the levels go down to it
  induction levels generalizing levels' depth name s with
  | zero =>
    obtain ⟨step, after, hvisits⟩ := g.exists_visits_run source strict levels' depth name s
    exact .stopped [] after _ s hvisits (List.forall_mem_nil _) rfl
  | succ levels ih =>
    obtain ⟨levels', rfl⟩ := Nat.exists_eq_succ_of_ne_zero (Nat.ne_zero_of_lt hle)
    have hdepth : depth < depth + (levels + 1) := by omega
    cases ha : g.alternatives name with
    | nil =>
      cases strict with
      | true =>
        rw [run_strict_of_undefined source ha, run_strict_of_undefined source ha]
        exact .same (List.forall_mem_singleton.2 hdepth)
      | false =>
        rw [run_lenient_of_undefined source ha, run_lenient_of_undefined source ha]
        exact .same (List.forall_mem_singleton.2 hdepth)
    | cons p ps =>
      rw [run_of_defined source strict ha, run_of_defined source strict ha]
      refine .chose hdepth (.ofBody _ (fun n _ s => ?_) _)
      rw [Nat.add_comm levels 1, ← Nat.add_assoc]
      exact ih (Nat.le_of_succ_le_succ hle) (depth + 1) n s

/-- **The levels that cut a run off** are those that are no more than the
run goes deep under levels that do not. -/
theorem run_cutOff_iff {g : Grammar} {source : Source σ} {strict : Bool} {levels' : Nat}
    {name : Text} {s : σ}
    (uncut : ∀ n, (g.run source strict levels' 0 name s).outcome ≠ .error (.cutOff n))
    (levels : Nat) :
    (∃ n, (g.run source strict levels 0 name s).outcome = .error (.cutOff n))
      ↔ levels ≤ (g.run source strict levels' 0 name s).nesting := by
  have hne : (g.run source strict levels' 0 name s).visits ≠ [] := by
    obtain ⟨step, after, hvisits⟩ := g.exists_visits_run source strict levels' 0 name s
    rw [hvisits]
    exact List.cons_ne_nil _ _
  have hbelow : ∀ levels ≤ levels',
      (∃ n, (g.run source strict levels 0 name s).outcome = .error (.cutOff n))
        ↔ levels ≤ (g.run source strict levels' 0 name s).nesting := by
    intro levels hle
    have hcut := g.run_barred_atDepth source strict hle 0 name s
    rw [Nat.zero_add] at hcut
    exact hcut.cutOff_iff hne uncut
  rcases Nat.le_total levels levels' with hle | hle
  · exact hbelow levels hle
  · -- more levels leave the run as it is, and it stays above the fewer ones
    have heq := (g.run_barred_atDepth source strict hle 0 name s).eq_of_uncut uncut
    have hlt := mt (hbelow levels' (Nat.le_refl levels')).2 fun ⟨n, hn⟩ => uncut n hn
    rw [← heq]
    constructor
    · exact fun ⟨n, hn⟩ => absurd hn (uncut n)
    · exact fun h => absurd (Nat.le_trans hle h) hlt

/-- A run that is not cut off is the same under any levels that it stays
above. -/
theorem run_eq_of_nesting_lt {g : Grammar} {source : Source σ} {strict : Bool}
    {levels levels' : Nat} {name : Text} {s : σ}
    (uncut : ∀ n, (g.run source strict levels' 0 name s).outcome ≠ .error (.cutOff n))
    (h : (g.run source strict levels' 0 name s).nesting < levels) :
    g.run source strict levels 0 name s = g.run source strict levels' 0 name s := by
  have uncut' : ∀ n, (g.run source strict levels 0 name s).outcome ≠ .error (.cutOff n) :=
    fun n hn => absurd ((run_cutOff_iff uncut levels).1 ⟨n, hn⟩) (Nat.not_le.2 h)
  rcases Nat.le_total levels levels' with hle | hle
  · exact (g.run_barred_atDepth source strict hle 0 name s).eq_of_uncut uncut'
  · exact ((g.run_barred_atDepth source strict hle 0 name s).eq_of_uncut uncut).symm

/-! ## Expansions under two limits -/

/-- How deep an expansion goes: the greatest depth of a name that it
reaches. -/
def nesting (g : Grammar) (source : Source σ) (settings : Settings) (name : Text) (s : σ) : Nat :=
  (g.run source settings.strict settings.levels 0 name s).nesting

/-- **Under a limit an expansion goes too deep exactly if its run is cut
off.** -/
theorem tooDeep_expand_iff {g : Grammar} {source : Source σ} {settings : Settings} {limit : Int}
    (hlimit : settings.maxDepth = some limit) {name : Text} {s : σ} :
    (g.expand source settings name s).TooDeep
      ↔ ∃ n, (g.run source settings.strict settings.levels 0 name s).outcome
        = .error (.cutOff n) := by
  constructor
  · rintro ⟨n, limit', h⟩
    obtain ⟨stop, hstop, herror⟩ := expand_result_error_iff.1 h
    cases stop with
    | refused m => cases herror
    | cutOff m => exact ⟨m, hstop⟩
  · rintro ⟨n, h⟩
    refine ⟨n, limit, expand_result_error_iff.2 ⟨_, h, ?_⟩⟩
    rw [Settings.errorOf, hlimit]

/-- An expansion whose run is not cut off is that run, whatever the limit
it is under. -/
theorem expand_congr_of_uncut {g : Grammar} {source : Source σ} {settings settings' : Settings}
    {name : Text} {s : σ}
    (hrun : g.run source settings'.strict settings'.levels 0 name s
      = g.run source settings.strict settings.levels 0 name s)
    (uncut : ∀ n, (g.run source settings.strict settings.levels 0 name s).outcome
      ≠ .error (.cutOff n)) :
    g.expand source settings' name s = g.expand source settings name s := by
  unfold expand
  rw [hrun]
  cases h : (g.run source settings.strict settings.levels 0 name s).outcome with
  | ok ts =>
    simp only [h]
    rfl
  | error stop =>
    cases stop with
    | refused m =>
      simp only [h]
      rfl
    | cutOff m => exact absurd h (uncut m)

/-- Without a level an expansion is stopped before the first choice. -/
theorem expand_of_levels_eq_zero (g : Grammar) (source : Source σ) {settings : Settings}
    (h : settings.levels = 0) (name : Text) (s : σ) :
    g.expand source settings name s = ⟨[], [], .error (settings.errorOf (.cutOff name)), s⟩ := by
  unfold expand
  rw [h, run_zero]
  rfl

/-- **A depth limit is a cut-off, with the depth of the expansion as its
threshold.** An expansion that does not go too deep under a limit is the
same under every wider one. It is also the same without a limit wherever
there is room for it, and runs out of room otherwise. One that does go too
deep has made the first of the choices and given the first of the notices
that it makes and gives under a wider limit. If it ends by itself under the
wider limit, the narrower ones that it goes too deep for are those that are
no more than the greatest depth of a name it reaches, an undefined one
included. A limit that is not positive stops it before the first choice. -/
theorem expand_of_maxDepth_le (g : Grammar) (source : Source σ) (settings : Settings)
    (name : Text) (s : σ) {d e : Int} (hde : d ≤ e) :
    let within (limit : Option Int) :=
      g.expand source { settings with maxDepth := limit } name s
    let nesting (limit : Int) :=
      g.nesting source { settings with maxDepth := some limit } name s
    (¬ (within (some d)).TooDeep →
      within (some e) = within (some d)
        ∧ (nesting d < settings.headroom → within none = within (some d))
        ∧ (settings.headroom ≤ nesting d → ∃ n, (within none).result = .error (.exhausted n)))
    ∧ ((within (some d)).TooDeep →
      (within (some d)).choices <+: (within (some e)).choices
        ∧ (within (some d)).notices <+: (within (some e)).notices)
    ∧ (¬ (within (some e)).TooDeep → ((within (some d)).TooDeep ↔ d ≤ nesting e))
    ∧ (d ≤ 0 → within (some d) = ⟨[], [], .error (.grammar (.tooDeep name d)), s⟩) := by
  intro within nesting
  have hlevels : d.toNat ≤ e.toNat := Int.toNat_le_toNat hde
  have hcut := g.run_barred_atDepth source settings.strict hlevels 0 name s
  have huncut : ∀ limit : Int, ¬ (within (some limit)).TooDeep →
      ∀ n, (g.run source settings.strict limit.toNat 0 name s).outcome ≠ .error (.cutOff n) :=
    fun limit h n hn => h ((tooDeep_expand_iff rfl).2 ⟨n, hn⟩)
  refine ⟨fun h => ⟨?_, fun hroom => ?_, fun hroom => ?_⟩, fun _ => ⟨?_, ?_⟩, fun h => ?_,
    fun h => ?_⟩
  · exact expand_congr_of_uncut (hcut.eq_of_uncut (huncut d h)).symm (huncut d h)
  · exact expand_congr_of_uncut (run_eq_of_nesting_lt (huncut d h) hroom) (huncut d h)
  · obtain ⟨n, hn⟩ := (run_cutOff_iff (huncut d h) settings.headroom).2 hroom
    exact ⟨n, expand_result_error_iff.2 ⟨_, hn, rfl⟩⟩
  · exact hcut.filterMap_prefix fun _ _ => rfl
  · exact hcut.filterMap_prefix fun _ _ => rfl
  · rw [tooDeep_expand_iff rfl]
    refine (run_cutOff_iff (huncut e h) d.toNat).trans ?_
    show d.toNat ≤ nesting e ↔ d ≤ nesting e
    exact Int.toNat_le
  · have hzero : Settings.levels { settings with maxDepth := some d } = 0 :=
      Int.toNat_eq_zero.2 h
    exact g.expand_of_levels_eq_zero source hzero name s

/-- An undefined name two references down: it goes too deep for the limit of
its own depth, behind a choice, and not for the next. -/
theorem expand_of_maxDepth_le_of_undefined_leaf :
    let g := ofProductions startName
      [.ofText startName "a <mid> b".toList, .ofText "<mid>".toList "c <gone>".toList]
    let within (limit : Option Int) :=
      g.expand Random.Chooser.source { maxDepth := limit, headroom := 3 } startName .first
    let nesting (limit : Int) :=
      g.nesting Random.Chooser.source { maxDepth := some limit, headroom := 3 } startName .first
    (2 : Int) ≤ 3 ∧ (within (some 2)).TooDeep ∧ ¬ (within (some 3)).TooDeep ∧ nesting 3 = 2
      ∧ (within (some 2)).choices <+: (within (some 3)).choices
      ∧ (within (some 2)).notices <+: (within (some 3)).notices
      ∧ ((within (some 2)).TooDeep ↔ (2 : Int) ≤ nesting 3)
      ∧ within (some 4) = within (some 3) ∧ within none = within (some 3) := by
  intro g within nesting
  have hdeep : (within (some 2)).TooDeep := ⟨"<gone>".toList, 2, by rfl⟩
  have hended : ¬ (within (some 3)).TooDeep := by
    rintro ⟨n, limit, h⟩
    have hresult : (within (some 3)).result = .ok "a c b ".toList := by rfl
    rw [hresult] at h
    cases h
  have hlaw (d e : Int) (hde : d ≤ e) := expand_of_maxDepth_le g Random.Chooser.source
    { headroom := 3 } startName .first hde
  obtain ⟨hchoices, hnotices⟩ := (hlaw 2 3 (by decide)).2.1 hdeep
  obtain ⟨hwider, hroom, -⟩ := (hlaw 3 4 (by decide)).1 hended
  exact ⟨by decide, hdeep, hended, by rfl, hchoices, hnotices,
    (hlaw 2 3 (by decide)).2.2.1 hended, hwider, hroom (by decide)⟩

end Grammar

end SentenceForge

import SentenceForge.Proofs.Text.Plain

/-!
# Other blanks

Which blanks a run is made of, and how many, is a matter of layout. Two texts
are respaced if that is all they differ in: a run stands where a run stands,
and what is not blank is the same (`Respaced`).

Collapsing forgets just that and nothing else, so texts are respaced exactly
if they collapse to the same (`respaced_iff`). Since collapsing goes through
every mark, a mark cuts respaced texts into respaced parts, wherever it stands
between blanks (`Respaced.of_append_cons`).
-/

namespace SentenceForge.Text

/-- **A text with other blanks**: each of its maximal runs of blanks is
replaced by a run of blanks, and the rest stays as it is. -/
inductive Respaced : Text → Text → Prop where
  /-- Nothing is left. -/
  | nil : Respaced [] []
  /-- A character that is not blank stays. -/
  | char {c : Char} {s s' : Text} (hc : isBlank c = false) (rest : Respaced s s') :
      Respaced (c :: s) (c :: s')
  /-- A maximal run is replaced by another. -/
  | blanks {b b' s s' : Text} (hb : AllBlank b) (hb' : AllBlank b') (hne : b ≠ []) (hne' : b' ≠ [])
      (maximal : ∀ c ∈ s.head?, isBlank c = false) (rest : Respaced s s') :
      Respaced (b ++ s) (b' ++ s')

/-! ## Texts by their runs -/

/-- A text is a run of blanks, which may be empty, and a text that does not
open with a blank. -/
theorem exists_blanks_append (s : Text) :
    ∃ b t, AllBlank b ∧ (∀ c ∈ t.head?, isBlank c = false) ∧ s = b ++ t :=
  ⟨s.takeWhile isBlank, trimLeft s, fun _ => List.mem_takeWhile_imp, not_isBlank_head_trimLeft s,
    List.takeWhile_append_dropWhile.symm⟩

/-- **Texts by their runs**: a character that is not blank, or a maximal run of
blanks, in front of a text. -/
theorem runs_induction {motive : Text → Prop} (nil : motive [])
    (char : ∀ c s, isBlank c = false → motive s → motive (c :: s))
    (blanks : ∀ b s, AllBlank b → b ≠ [] → (∀ c ∈ s.head?, isBlank c = false) → motive s →
      motive (b ++ s)) (s : Text) : motive s := by
  induction hn : s.length using Nat.strong_induction_on generalizing s with
  | _ n ih =>
    obtain ⟨b, t, hb, ht, rfl⟩ := exists_blanks_append s
    rw [List.length_append] at hn
    by_cases hne : b = []
    · subst hne
      cases t with
      | nil => exact nil
      | cons c t =>
        rw [List.length_nil, List.length_cons] at hn
        exact char c t (ht c rfl) (ih t.length (by omega) t rfl)
    · have hlength := List.length_pos_iff.2 hne
      exact blanks b t hb hne ht (ih t.length (by omega) t rfl)

/-! ## What collapsing forgets -/

/-- A text that does not open with a blank does not do so collapsed. -/
theorem not_isBlank_head_collapse {s : Text} (hs : ∀ c ∈ s.head?, isBlank c = false) :
    ∀ c ∈ (collapse s).head?, isBlank c = false := by
  cases s with
  | nil => exact hs
  | cons d s =>
    rw [collapse_cons_of_not_isBlank (hs d rfl)]
    exact hs

/-- **A maximal run of blanks collapses to one space.** -/
theorem collapse_append_of_allBlank {b s : Text} (hb : AllBlank b) (hne : b ≠ [])
    (hs : ∀ c ∈ s.head?, isBlank c = false) : collapse (b ++ s) = ' ' :: collapse s := by
  obtain ⟨c, b, rfl⟩ := List.exists_cons_of_ne_nil hne
  rw [allBlank_cons] at hb
  have hleft : trimLeft (collapse s) = collapse s := by
    have hhead := not_isBlank_head_collapse hs
    cases hcollapse : collapse s with
    | nil => rfl
    | cons d u =>
      rw [hcollapse] at hhead
      exact trimLeft_cons_of_not_isBlank (hhead d rfl) u
  rw [List.cons_append, collapse_cons_of_isBlank hb.1, trimLeft_collapse_append hb.2, hleft]

/-- Collapsing leaves something of every character. -/
theorem collapse_cons_ne_nil (c : Char) (s : Text) : collapse (c :: s) ≠ [] := by
  cases hc : isBlank c with
  | true =>
    rw [collapse_cons_of_isBlank hc]
    exact List.cons_ne_nil _ _
  | false =>
    rw [collapse_cons_of_not_isBlank hc]
    exact List.cons_ne_nil _ _

/-- A text with other blanks that does not open with one stays such a text. -/
theorem Respaced.not_isBlank_head {s s' : Text} (h : Respaced s s')
    (hs : ∀ c ∈ s.head?, isBlank c = false) : ∀ c ∈ s'.head?, isBlank c = false := by
  cases h with
  | nil => exact hs
  | char hc _ => exact hs
  | @blanks b b' s s' hb hb' hne _ _ _ =>
    obtain ⟨d, b, rfl⟩ := List.exists_cons_of_ne_nil hne
    have hblank : isBlank d = true := hb d List.mem_cons_self
    rw [hs d rfl] at hblank
    cases hblank

/-- Texts that differ in their blanks collapse to the same. -/
theorem Respaced.collapse_eq {s s' : Text} (h : Respaced s s') : collapse s = collapse s' := by
  induction h with
  | nil => rfl
  | char hc _ ih => rw [collapse_cons_of_not_isBlank hc, collapse_cons_of_not_isBlank hc, ih]
  | blanks hb hb' hne hne' maximal rest ih =>
    rw [collapse_append_of_allBlank hb hne maximal,
      collapse_append_of_allBlank hb' hne' (rest.not_isBlank_head maximal), ih]

/-- Texts that collapse to the same differ in their blanks only. -/
theorem respaced_of_collapse_eq {s s' : Text} (h : collapse s = collapse s') : Respaced s s' := by
  induction s using runs_induction generalizing s' with
  | nil =>
    cases s' with
    | nil => exact .nil
    | cons d u => exact absurd h.symm (collapse_cons_ne_nil d u)
  | char c s hc ih =>
    rw [collapse_cons_of_not_isBlank hc] at h
    cases s' with
    | nil => cases h
    | cons d u =>
      cases hd : isBlank d with
      | true =>
        -- a run would leave a space where `c` is
        rw [collapse_cons_of_isBlank hd] at h
        rw [(List.cons.inj h).1] at hc
        cases hc
      | false =>
        rw [collapse_cons_of_not_isBlank hd] at h
        obtain ⟨rfl, hrest⟩ := List.cons.inj h
        exact .char hc (ih hrest)
  | blanks b s hb hne maximal ih =>
    rw [collapse_append_of_allBlank hb hne maximal] at h
    obtain ⟨b', t, hb', ht, rfl⟩ := exists_blanks_append s'
    by_cases hne' : b' = []
    · subst hne'
      -- what does not open with a blank leaves none where the run leaves its space
      have hspace := not_isBlank_head_collapse ht ' ' (by rw [← List.nil_append t, ← h]; rfl)
      cases hspace
    · rw [collapse_append_of_allBlank hb' hne' ht] at h
      exact .blanks hb hb' hne hne' maximal (ih (List.cons.inj h).2)

/-- **Texts differ in their blanks only if they collapse to the same**, and
only then. -/
theorem respaced_iff {s s' : Text} : Respaced s s' ↔ collapse s = collapse s' :=
  ⟨Respaced.collapse_eq, respaced_of_collapse_eq⟩

instance (s s' : Text) : Decidable (Respaced s s') := decidable_of_iff' _ respaced_iff

/-! ## What is the same in texts with other blanks -/

namespace Respaced

variable {m : Char} {s s' t p p' : Text}

/-- The blanks may be changed back. -/
theorem symm (h : Respaced s s') : Respaced s' s := respaced_iff.2 h.collapse_eq.symm

/-- **The plain form is the same.** -/
theorem plain_eq (h : Respaced s s') : plain s = plain s' := by
  rw [plain, h.collapse_eq, plain]

/-- What is not blank is in both or in neither. -/
theorem mem_iff (h : Respaced s s') (hm : isBlank m = false) : m ∈ s ↔ m ∈ s' := by
  rw [← mem_collapse hm s, h.collapse_eq, mem_collapse hm]

/-- An empty text has no blanks to change. -/
theorem ne_nil (h : Respaced s s') (hs : s ≠ []) : s' ≠ [] := by
  rintro rfl
  obtain ⟨c, u, rfl⟩ := List.exists_cons_of_ne_nil hs
  exact collapse_cons_ne_nil c u h.collapse_eq

/-- Respaced texts with a mark between them are respaced. -/
theorem append_cons (hm : isBlank m = false) (hp : Respaced p p') (hs : Respaced s s') :
    Respaced (p ++ m :: s) (p' ++ m :: s') := by
  rw [respaced_iff, collapse_append_cons hm, collapse_append_cons hm, hp.collapse_eq,
    hs.collapse_eq]

/-- **A mark cuts respaced texts into respaced parts**, where it stands
first. -/
theorem of_append_cons (hm : isBlank m = false) (hp : m ∉ p) (h : Respaced (p ++ m :: s) t) :
    ∃ p' s', t = p' ++ m :: s' ∧ m ∉ p' ∧ Respaced p p' ∧ Respaced s s' := by
  have hmem : m ∈ t := (h.mem_iff hm).1 (List.mem_append_right _ List.mem_cons_self)
  obtain ⟨p', s', rfl, hp'⟩ := List.eq_append_cons_of_mem hmem
  have hcollapse : collapse p ++ m :: collapse s = collapse p' ++ m :: collapse s' := by
    rw [← collapse_append_cons hm, h.collapse_eq, collapse_append_cons hm]
  obtain ⟨hfirst, hrest⟩ := append_cons_inj (mt (mem_collapse hm p).1 hp)
    (mt (mem_collapse hm p').1 hp') hcollapse
  exact ⟨p', s', rfl, hp', respaced_iff.2 hfirst, respaced_iff.2 hrest⟩

end Respaced

end SentenceForge.Text

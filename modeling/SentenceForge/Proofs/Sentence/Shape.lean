import SentenceForge.Proofs.Expansion.Derivation
import SentenceForge.Proofs.Sentence.Punctuation
import SentenceForge.Proofs.Text.Plain
import SentenceForge.Sentence.Basic

/-!
# The shape of a sentence

A sentence is tidy (`Tidy`): no blank but single spaces, none at its ends,
no space in front of a mark that closes up and none behind a closing
parenthesis. All of this is about a space and the character next to it, so
it is settled at the gaps of the spacing that the raw text was given, and
trimming only takes away.

What a tidy text may still hold of the seven patterns is a comma in front
of a full stop and a star behind one. These are then the only reasons why
fixing its punctuation again would change it (`Tidy.fix_ne_self_iff`).
-/

namespace SentenceForge

open Text

/-! ## Lines -/

namespace Text

/-- The characters that end a line, in one convention or another. -/
def endsLine (c : Char) : Bool :=
  let n := c.toNat
  (10 ≤ n && n ≤ 13) || (28 ≤ n && n ≤ 30) || n == 0x85 || n == 0x2028 || n == 0x2029

/-- What ends a line is a blank. -/
theorem isBlank_of_endsLine {c : Char} (h : endsLine c = true) : isBlank c = true := by
  simp only [endsLine, isBlank, Bool.or_eq_true, Bool.and_eq_true, decide_eq_true_eq,
    beq_iff_eq] at h ⊢
  omega

end Text

/-! ## When nothing is left to fix -/

/-- **Substitutions that shorten change a text exactly if one of their
patterns occurs in it**, although it may not be the first that is made. -/
theorem foldl_substitute_eq_self_iff {fs : List (Text × Text)}
    (h : ∀ f ∈ fs, f.2.length < f.1.length) (s : Text) :
    fs.foldl (fun s f => substitute f.1 f.2 s) s = s ↔ ∀ f ∈ fs, ¬ f.1 <:+: s := by
  have hshrink : ∀ gs : List (Text × Text), (∀ f ∈ gs, f.2.length < f.1.length) → ∀ t : Text,
      (gs.foldl (fun s f => substitute f.1 f.2 s) t).length ≤ t.length := by
    intro gs hgs t
    induction gs generalizing t with
    | nil => exact Nat.le_refl _
    | cons f gs ih =>
      rw [List.forall_mem_cons] at hgs
      have hne : f.1 ≠ [] := List.length_pos_iff.1 (by omega)
      exact Nat.le_trans (ih hgs.2 _) (length_substitute_le hne (Nat.le_of_lt hgs.1) t)
  induction fs with
  | nil => simp
  | cons f fs ih =>
    rw [List.forall_mem_cons] at h
    rw [List.foldl_cons, List.forall_mem_cons]
    constructor
    · intro heq
      have hf : ¬ f.1 <:+: s := by
        intro hin
        have hlt := length_substitute_lt h.1 hin
        have hle := hshrink fs h.2 (substitute f.1 f.2 s)
        rw [heq] at hle
        omega
      rw [substitute_of_absent hf] at heq
      exact ⟨hf, (ih h.2).1 heq⟩
    · rintro ⟨hf, hrest⟩
      rw [substitute_of_absent hf]
      exact (ih h.2).2 hrest

/-- **Fixing the punctuation changes a text exactly if one of the patterns
occurs in it.** -/
theorem Punctuation.fix_eq_self_iff (s : Text) :
    fix s = s ↔ ∀ f ∈ fixes, ¬ f.1 <:+: s :=
  foldl_substitute_eq_self_iff length_lt_of_mem_fixes s

/-! ## Spaces and their neighbours -/

namespace Spacing

variable {σ : Spacing} (hσ : σ.Regular) {ts : List Text}

include hσ

/-- Whatever is blank in spaced words is a space. -/
theorem Regular.eq_space_of_mem_after (hts : ∀ t ∈ ts, IsWord t) (b : Text) {c : Char}
    (hc : c ∈ σ.after b ts) (hblank : isBlank c = true) : c = ' ' := by
  induction ts generalizing b with
  | nil => exact absurd hc List.not_mem_nil
  | cons t ts ih =>
    rw [List.forall_mem_cons] at hts
    rw [after, List.mem_append, List.mem_append] at hc
    rcases hc with hc | hc | hc
    · exact absurd hblank (by simp [hσ.not_isBlank_core hts.1 c hc])
    · unfold gap at hc
      split at hc
      · exact List.mem_singleton.1 hc
      · exact absurd hc List.not_mem_nil
    · exact ih hts.2 t hc

/-- **A space is in front of no character that gaps are closed in front
of.** -/
theorem Regular.not_infix_front {d : Char} (hd : ∀ t u, IsWord u → σ.apart t u = true →
    u.head? ≠ some d) (hts : ∀ t ∈ ts, IsWord t) (b : Text) : ¬ [' ', d] <:+: σ.after b ts := by
  induction ts generalizing b with
  | nil => simp [after]
  | cons t ts ih =>
    rw [List.forall_mem_cons] at hts
    have hspace : ' ' ∉ σ.core b t := hσ.space_not_mem hts.1
    rw [after, infix_append_iff]
    rintro (hin | hin | hjoin)
    · exact hspace (hin.subset List.mem_cons_self)
    · cases hapart : σ.apart t (ts.headD []) with
      | false =>
        rw [gap_of_not_apart hapart] at hin
        exact ih hts.2 t hin
      | true =>
        rw [gap_of_apart hapart] at hin
        rcases List.infix_cons_iff.1 hin with hfront | hin
        · -- the character behind the gap opens the next token
          obtain ⟨r, hr⟩ := (List.cons_prefix_cons.1 hfront).2
          have hhead : (ts.headD []).head? = some d := by
            rw [← hσ.head?_after hts.2 hapart]
            exact congrArg List.head? hr.symm
          cases ts with
          | nil => cases hhead
          | cons u us => exact hd t u (hts.2 u List.mem_cons_self) hapart hhead
        · exact ih hts.2 t hin
    · refine not_straddles_of_getLast? (fun c hc hmem => ?_) hjoin
      exact hspace (List.mem_singleton.1 hmem ▸ List.mem_of_getLast? hc)

/-- **A space is behind no character that gaps are closed behind.** -/
theorem Regular.not_infix_behind {d : Char} (hspaced : d ≠ ' ') (hstar : d ≠ '*')
    (hstop : d ≠ '.') (hd : ∀ t u, σ.apart t u = true → t.getLast? ≠ some d)
    (hts : ∀ t ∈ ts, IsWord t) (b : Text) : ¬ [d, ' '] <:+: σ.after b ts := by
  induction ts generalizing b with
  | nil => simp [after]
  | cons t ts ih =>
    rw [List.forall_mem_cons] at hts
    have hspace : ' ' ∉ σ.core b t := hσ.space_not_mem hts.1
    rw [after, infix_append_iff]
    rintro (hin | hin | hjoin)
    · exact hspace (hin.subset (by simp))
    · cases hapart : σ.apart t (ts.headD []) with
      | false =>
        rw [gap_of_not_apart hapart] at hin
        exact ih hts.2 t hin
      | true =>
        rw [gap_of_apart hapart] at hin
        rcases List.infix_cons_iff.1 hin with hfront | hin
        · exact hspaced (List.cons_prefix_cons.1 hfront).1
        · exact ih hts.2 t hin
    · -- behind a token that ends with `d` no gap is open, and no token is nothing
      by_cases hm : (σ.core b t).getLast? = some d
      · have hlast : t.getLast? = some d := (hσ.getLast?_core hts.1 hstar).1 hm
        have hapart : σ.apart t (ts.headD []) = false :=
          Bool.eq_false_iff.2 fun h => hd t _ h hlast
        rw [gap_of_not_apart hapart] at hjoin
        refine not_straddles_of_head? (fun c hc hmem => ?_) hjoin
        obtain rfl := List.mem_singleton.1 hmem
        have hstop' := hσ.getLast?_of_head?_after hts.2 hc
        rw [hlast] at hstop'
        exact hstop (Option.some.inj hstop')
      · refine not_straddles_of_getLast? (fun c hc hmem => hm ?_) hjoin
        obtain rfl := List.mem_singleton.1 hmem
        exact hc

end Spacing

/-! ## Tidy texts -/

/-- **A tidy text**: single spaces, none at the ends, none in front of a mark
that closes up and none behind a closing parenthesis. -/
structure Tidy (r : Text) : Prop where
  /-- Every blank is a space, and no two of them are neighbours. -/
  singleSpaced : SingleSpaced r
  /-- It does not open with a blank. -/
  not_isBlank_head : ∀ c ∈ r.head?, isBlank c = false
  /-- It does not end with a blank. -/
  not_isBlank_last : ∀ c ∈ r.getLast?, isBlank c = false
  /-- No space is in front of a mark that closes up. -/
  closed_before : ∀ mark ∈ Punctuation.closingMarks, ¬ [' ', mark] <:+: r
  /-- No space is behind a closing parenthesis. -/
  closed_behind : ¬ [')', ' '] <:+: r

/-- **A tidy text is on one line**, whichever characters end a line. -/
theorem Tidy.on_one_line {r : Text} (h : Tidy r) : ∀ c ∈ r, endsLine c = false := by
  intro c hc
  by_contra hends
  have hline : endsLine c = true := Bool.not_eq_false _ ▸ hends
  obtain rfl := h.singleSpaced.eq_space c hc (isBlank_of_endsLine hline)
  exact absurd hline (by decide)

/-- **Fixing the punctuation changes a text whose gaps are closed** exactly if
there is a comma in front of a full stop in it, or a star behind one. -/
theorem fix_ne_self_iff_of_closed {s : Text}
    (hbefore : ∀ mark ∈ Punctuation.closingMarks, ¬ [' ', mark] <:+: s)
    (hbehind : ¬ [')', ' '] <:+: s) :
    Punctuation.fix s ≠ s ↔ ",.".toList <:+: s ∨ ". *".toList <:+: s := by
  have hcomma : ¬ " ,".toList <:+: s := hbefore ',' (by decide)
  have hstop : ¬ " .".toList <:+: s := hbefore '.' (by decide)
  have hopen : ¬ " (".toList <:+: s := hbefore '(' (by decide)
  have hquestion : ¬ " ?".toList <:+: s := hbefore '?' (by decide)
  have hclose : ¬ ") ".toList <:+: s := hbehind
  rw [Ne, Punctuation.fix_eq_self_iff, Punctuation.fixes]
  simp only [List.forall_mem_cons, List.not_mem_nil, IsEmpty.forall_iff, implies_true,
    hcomma, hstop, hopen, hclose, hquestion, not_false_eq_true, true_and, and_true]
  rw [Classical.not_and_iff_not_or_not, not_not, not_not, or_comm]

/-- **Fixing the punctuation changes a tidy text** exactly if there is a comma
in front of a full stop in it, or a star behind one. -/
theorem Tidy.fix_ne_self_iff {r : Text} (h : Tidy r) :
    Punctuation.fix r ≠ r ↔ ",.".toList <:+: r ∨ ". *".toList <:+: r :=
  fix_ne_self_iff_of_closed h.closed_before h.closed_behind

/-- **Trimming makes a text tidy** that is tidy but for its ends. -/
theorem tidy_trim {s : Text} (hs : SingleSpaced s)
    (hbefore : ∀ mark ∈ Punctuation.closingMarks, ¬ [' ', mark] <:+: s)
    (hbehind : ¬ [')', ' '] <:+: s) : Tidy (trim s) where
  singleSpaced := hs.mono (trim_isInfix s)
  not_isBlank_head := not_isBlank_head_trim s
  not_isBlank_last := not_isBlank_last_trim s
  closed_before mark hmark h := hbefore mark hmark (h.trans (trim_isInfix s))
  closed_behind h := hbehind (h.trans (trim_isInfix s))

/-! ## Sentences are tidy -/

namespace Punctuation

/-- The spacing of punctuation is regular. -/
theorem regular_spacing : spacing.Regular := by
  rw [← Spacing.closed_stopped_eq]
  exact (((Spacing.regular_stopped.closeBefore '.').closeBefore '(').closeBehind ')').closeBefore
    '?'

/-- A gap is open only if nothing closes it. -/
theorem of_apart {t u : Text} (h : spacing.apart t u = true) :
    t.getLast? ≠ some ')' ∧ ∀ mark ∈ closingMarks, u.head? ≠ some mark := by
  have h' : (t.getLast? != some ')' && !starred t u
      && closingMarks.all fun mark => u.head? != some mark) = true := h
  rw [Bool.and_eq_true, Bool.and_eq_true, bne_iff_ne, List.all_eq_true] at h'
  exact ⟨h'.1.1, fun mark hmark => bne_iff_ne.1 (h'.2 mark hmark)⟩

section Fixed

variable {ts : List Text} (h : ∀ t ∈ ts, IsWord t)

include h

/-- **Fixed punctuation is closed up**: no space is in front of a mark that
closes up. -/
theorem not_infix_before_fix {mark : Char} (hmark : mark ∈ closingMarks) :
    ¬ [' ', mark] <:+: fix (rawText ts) := by
  rw [fix_rawText ts h]
  exact regular_spacing.not_infix_front (fun _ _ _ hapart => (of_apart hapart).2 mark hmark) h []

/-- Nor is there one behind a closing parenthesis. -/
theorem not_infix_behind_fix : ¬ [')', ' '] <:+: fix (rawText ts) := by
  rw [fix_rawText ts h]
  exact regular_spacing.not_infix_behind (by decide) (by decide) (by decide)
    (fun _ _ hapart => (of_apart hapart).1) h []

end Fixed

end Punctuation

/-- **The sentence of words is tidy.** -/
theorem tidy_sentenceOfRaw {ts : List Text} (h : ∀ t ∈ ts, IsWord t) :
    Tidy (sentenceOfRaw (rawText ts)) := by
  have hσ := Punctuation.regular_spacing
  refine tidy_trim ?_ (fun _ => Punctuation.not_infix_before_fix h)
    (Punctuation.not_infix_behind_fix h)
  rw [Punctuation.fix_rawText ts h]
  refine ⟨fun c hc hblank => hσ.eq_space_of_mem_after h [] hc hblank, ?_⟩
  refine hσ.not_infix_front (fun t u hu _ hspace => ?_) h []
  have hmem : ' ' ∈ u := List.mem_of_head? hspace
  exact Spacing.space_not_mem_of_not_isBlank hu.2 hmem

namespace Grammar

variable {σ : Type} {source : Source σ} {settings : Settings}

/-- **What a grammar that was built expands to is raw text of words.** -/
theorem exists_words_of_expand {entries : List Entry} {g : Grammar}
    (built : (ofEntries entries).result = .ok g) {name raw : Text} {s : σ}
    (h : (g.expand source settings name s).result = .ok raw) :
    ∃ ts, (∀ t ∈ ts, IsWord t) ∧ raw = rawText ts := by
  obtain ⟨ts, hts, rfl⟩ := expand_result_ok h
  obtain ⟨d, -, hfollows⟩ := exists_follows source settings.strict _ 0 name s ts hts
  obtain rfl : ts = d.terminals := Except.ok.inj (hts.symm.trans hfollows.outcome)
  obtain ⟨ds, -, rfl, -⟩ := exists_kept_of_ofEntries built
  refine ⟨_, fun t ht => ?_, rfl⟩
  obtain ⟨p, hp, htp⟩ := d.mem_of_mem_terminals t ht
  exact (isWord_of_mem_body hp htp).1

/-- A grammar with a start, as a text writes it, was built from entries. -/
theorem exists_built_of_startable {text : Text} {g : Grammar}
    (h : (startable text).result = .ok g) :
    ∃ entries, (ofEntries entries).result = .ok g := by
  obtain ⟨g', hg', hnext⟩ := Logged.andThen_result_ok h
  obtain rfl : g' = g := by
    by_cases hdefines : g'.defines startName = true
    · rw [if_pos hdefines] at hnext
      exact Except.ok.inj hnext
    · rw [if_neg hdefines] at hnext
      cases hnext
  cases hread : Definition.ofText text with
  | error fault =>
    unfold ofText at hg'
    rw [hread] at hg'
    cases hg'
  | ok ds => exact ⟨_, ofText_of_read hread ▸ hg'⟩

end Grammar

/-- **A sentence that was generated**, from a text or from a grammar that was
built. -/
inductive Generated {σ : Type} (source : Source σ) (settings : Settings) (s : σ)
    (r : Text) : Prop where
  /-- From the text of a grammar. -/
  | ofText (text : Text) (result : (sentenceOfText text source settings s).result = .ok r)
  /-- From a grammar that entries make. -/
  | ofGrammar (entries : List Entry) (g : Grammar)
      (built : (Grammar.ofEntries entries).result = .ok g)
      (result : (g.sentence source settings s).result = .ok r)

section Generated

variable {σ : Type} {source : Source σ} {settings : Settings} {s : σ} {r : Text}

/-- Whatever is generated is generated from a grammar that was built. -/
theorem Generated.exists_built (h : Generated source settings s r) :
    ∃ entries g, (Grammar.ofEntries entries).result = .ok g
      ∧ (g.sentence source settings s).result = .ok r := by
  cases h with
  | ofGrammar entries g built result => exact ⟨entries, g, built, result⟩
  | ofText text result =>
    obtain ⟨g, hstart, hsentence⟩ := Generation.ofLogged_result_ok result
    obtain ⟨entries, built⟩ := Grammar.exists_built_of_startable hstart
    exact ⟨entries, g, built, hsentence⟩

/-- **Every sentence that is generated is the sentence of words.** -/
theorem Generated.exists_words (h : Generated source settings s r) :
    ∃ ts, (∀ t ∈ ts, IsWord t) ∧ r = sentenceOfRaw (rawText ts) := by
  obtain ⟨entries, g, built, result⟩ := h.exists_built
  have hresult : ((g.expand source settings g.start s).result.map sentenceOfRaw) = .ok r := result
  cases hexpand : (g.expand source settings g.start s).result with
  | error e =>
    rw [hexpand] at hresult
    cases hresult
  | ok raw =>
    rw [hexpand] at hresult
    obtain ⟨ts, hts, rfl⟩ := Grammar.exists_words_of_expand built hexpand
    exact ⟨ts, hts, (Except.ok.inj hresult).symm⟩

/-- **Every sentence that is generated is tidy**, and so on one line.
Fixing its punctuation once more changes it exactly if the first time left a
comma in front of a full stop in it, or a star behind one. -/
theorem tidy_of_generated (h : Generated source settings s r) :
    Tidy r ∧ (∀ c ∈ r, endsLine c = false)
      ∧ (Punctuation.fix r ≠ r ↔ ",.".toList <:+: r ∨ ". *".toList <:+: r) := by
  obtain ⟨ts, hts, rfl⟩ := h.exists_words
  have htidy := tidy_sentenceOfRaw hts
  exact ⟨htidy, htidy.on_one_line, htidy.fix_ne_self_iff⟩

end Generated

/-- A sentence that still holds both: one of two commas and one of two stars
were taken. -/
theorem tidy_of_generated_of_doubled :
    let text := "Start: \x7b <start>\tOh , ,. * *\n well ( so ) ? ; \x7d".toList
    let r := "Oh,. * well( so )?".toList
    (sentenceOfText text Random.Chooser.source {} .first).result = .ok r
      ∧ Tidy r ∧ (∀ c ∈ r, endsLine c = false)
      ∧ (Punctuation.fix r ≠ r ↔ ",.".toList <:+: r ∨ ". *".toList <:+: r) := by
  intro text r
  have result : (sentenceOfText text Random.Chooser.source {} .first).result = .ok r := by rfl
  exact ⟨result, tidy_of_generated (.ofText text result)⟩

end SentenceForge

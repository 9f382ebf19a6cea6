import Mathlib.Data.List.DropRight
import SentenceForge.Proofs.Text.Words

/-!
# The plain form

Collapsing and trimming leave the words of a text with single spaces
between them (`plain_eq_joinWith`), so the plain form has the words of the
text and no blank but single spaces between them.

A character that is not blank is a fixed point of both, and a text may
therefore be cut at it first: the pieces of a plain form are, trimmed, the
plain forms of the pieces (`map_trim_pieces_plain`).
-/

namespace SentenceForge.Text

/-! ## Trimming -/

/-- A blank in front is dropped. -/
theorem trimLeft_cons_of_isBlank {c : Char} (h : isBlank c = true) (s : Text) :
    trimLeft (c :: s) = trimLeft s := List.dropWhile_cons_of_pos h

/-- A text that does not open with a blank has nothing to drop there. -/
theorem trimLeft_cons_of_not_isBlank {c : Char} (h : isBlank c = false) (s : Text) :
    trimLeft (c :: s) = c :: s := List.dropWhile_cons_of_neg (by simp [h])

/-- A run of blanks in front is dropped. -/
theorem trimLeft_append_of_allBlank {b : Text} (hb : AllBlank b) (s : Text) :
    trimLeft (b ++ s) = trimLeft s := List.dropWhile_append_of_pos hb

/-- Dropping the blanks in front twice is dropping them once. -/
@[simp] theorem trimLeft_trimLeft (s : Text) : trimLeft (trimLeft s) = trimLeft s :=
  List.dropWhile_idempotent ..

/-- A run of blanks at the end is dropped. -/
theorem trimRight_append_of_allBlank {b : Text} (hb : AllBlank b) (s : Text) :
    trimRight (s ++ b) = trimRight s := by
  have hb' : ∀ c ∈ b.reverse, isBlank c = true := fun c hc => hb c (List.mem_reverse.1 hc)
  rw [trimRight, List.reverse_append, List.dropWhile_append_of_pos hb', trimRight]

/-- What is in front of a text that keeps something is kept. -/
theorem trimRight_append_of_ne_nil {s : Text} (h : trimRight s ≠ []) (t : Text) :
    trimRight (t ++ s) = t ++ trimRight s := by
  have hne : s.reverse.dropWhile isBlank ≠ [] := fun e => h (by rw [trimRight, e]; rfl)
  rw [trimRight, List.reverse_append, List.dropWhile_append, if_neg (by simpa using hne),
    List.reverse_append, List.reverse_reverse, trimRight]

/-- A word has nothing to trim. -/
theorem IsWord.trimRight_eq {t : Text} (ht : IsWord t) : trimRight t = t :=
  List.rdropWhile_eq_self_iff.2 fun hne => by simp [ht.2 _ (List.getLast_mem hne)]

/-- The space behind a word is dropped with the text behind it, or both
stay. -/
theorem IsWord.trimRight_append_space {t : Text} (ht : IsWord t) (s : Text) :
    trimRight (t ++ ' ' :: s) = if trimRight s = [] then t else t ++ ' ' :: trimRight s := by
  by_cases h : trimRight s = []
  · have hblank : AllBlank (' ' :: s) :=
      (allBlank_cons ' ' s).2 ⟨isBlank_space, List.rdropWhile_eq_nil_iff.1 h⟩
    rw [if_pos h, trimRight_append_of_allBlank hblank, ht.trimRight_eq]
  · have hspace : trimRight (' ' :: s) = ' ' :: trimRight s := trimRight_append_of_ne_nil h [' ']
    have hne : trimRight (' ' :: s) ≠ [] := by
      rw [hspace]
      exact List.cons_ne_nil _ _
    rw [if_neg h, trimRight_append_of_ne_nil hne, hspace]

/-! ## Collapsing -/

/-- Collapsing leaves a character that is not blank. -/
theorem collapse_cons_of_not_isBlank {c : Char} (h : isBlank c = false) (s : Text) :
    collapse (c :: s) = c :: collapse s := by
  cases s <;> simp [collapse, h]

/-- Collapsing leaves a word alone. -/
theorem collapse_append_of_not_isBlank {t : Text} (ht : ∀ c ∈ t, isBlank c = false)
    (s : Text) : collapse (t ++ s) = t ++ collapse s := by
  induction t with
  | nil => rfl
  | cons c t ih =>
    rw [List.forall_mem_cons] at ht
    rw [List.cons_append, collapse_cons_of_not_isBlank ht.1, ih ht.2, List.cons_append]

/-- **A run of blanks collapses to one space.** -/
theorem collapse_cons_of_isBlank {c : Char} (hc : isBlank c = true) (s : Text) :
    collapse (c :: s) = ' ' :: trimLeft (collapse s) := by
  induction s generalizing c with
  | nil => simp [collapse, hc, trimLeft]
  | cons d s ih =>
    cases hd : isBlank d with
    | true =>
      have hskip : collapse (c :: d :: s) = collapse (d :: s) := by simp [collapse, hc, hd]
      rw [hskip, ih hd, trimLeft_cons_of_isBlank isBlank_space, trimLeft_trimLeft]
    | false =>
      have hone : collapse (c :: d :: s) = ' ' :: collapse (d :: s) := by simp [collapse, hc, hd]
      rw [hone, collapse_cons_of_not_isBlank hd, trimLeft_cons_of_not_isBlank hd]

/-- A blank in front collapses to nothing once trimmed. -/
theorem trimLeft_collapse_cons {c : Char} (hc : isBlank c = true) (s : Text) :
    trimLeft (collapse (c :: s)) = trimLeft (collapse s) := by
  rw [collapse_cons_of_isBlank hc, trimLeft_cons_of_isBlank isBlank_space, trimLeft_trimLeft]

/-- So does a run of blanks. -/
theorem trimLeft_collapse_append {b : Text} (hb : AllBlank b) (s : Text) :
    trimLeft (collapse (b ++ s)) = trimLeft (collapse s) := by
  induction b with
  | nil => rfl
  | cons c b ih =>
    rw [allBlank_cons] at hb
    rw [List.cons_append, trimLeft_collapse_cons hb.1, ih hb.2]

/-! ## The plain form of a spread -/

/-- Words joined with spaces keep something at the end. -/
theorem joinWith_ne_nil {sep t : Text} (ht : t ≠ []) (ts : List Text) :
    joinWith sep (t :: ts) ≠ [] := by
  cases ts with
  | nil => exact ht
  | cons u ts =>
    rw [joinWith_cons sep t (List.cons_ne_nil u ts)]
    simp [ht]

/-- **The plain form of a spread** is its words with single spaces between
them. -/
theorem Spreads.plain_eq {ts : List Text} {s : Text} (h : Spreads ts s) :
    plain s = joinWith [' '] ts := by
  induction h with
  | @blank b hb =>
    have hleft : trimLeft (collapse b) = [] := by
      simpa [collapse, trimLeft] using trimLeft_collapse_append hb []
    unfold plain trim
    rw [hleft]
    rfl
  | @word b t s ts hb ht hs rest ih =>
    obtain ⟨c, u, rfl, hc⟩ := ht.exists_cons
    have hleft : trimLeft (collapse (b ++ c :: u ++ s)) = c :: u ++ collapse s := by
      rw [List.append_assoc, trimLeft_collapse_append hb, collapse_append_of_not_isBlank ht.2,
        List.cons_append, trimLeft_cons_of_not_isBlank hc]
    unfold plain trim
    rw [hleft]
    cases s with
    | nil =>
      obtain rfl : ts = [] := rest.words_eq.symm
      rw [collapse, List.append_nil]
      exact ht.trimRight_eq
    | cons d s =>
      rw [setsOff_cons] at hs
      -- the blanks after the word are one space, and trimming sees what follows it
      have hrest : trimRight (trimLeft (collapse s)) = joinWith [' '] ts := by
        rw [← ih, plain, trim, trimLeft_collapse_cons hs]
      rw [collapse_cons_of_isBlank hs, ht.trimRight_append_space, hrest]
      cases ts with
      | nil => exact if_pos rfl
      | cons v ts =>
        have hv : v ≠ [] := (rest.isWord v List.mem_cons_self).1
        rw [if_neg (joinWith_ne_nil hv ts), joinWith_cons [' '] (c :: u) (List.cons_ne_nil v ts)]
        simp

/-- **The plain form of a text is its words with single spaces between
them.** -/
theorem plain_eq_joinWith (s : Text) : plain s = joinWith [' '] (words s) :=
  (spreads_words s).plain_eq

/-- Blanks in front of a text are gone from its plain form. -/
theorem plain_append_of_allBlank {b : Text} (hb : AllBlank b) (s : Text) :
    plain (b ++ s) = plain s := by
  rw [plain_eq_joinWith, words_append_of_allBlank hb, ← plain_eq_joinWith]

/-- **The plain form has the words of the text.** -/
@[simp] theorem words_plain (s : Text) : words (plain s) = words s := by
  rw [plain_eq_joinWith]
  exact (spreads_joinWith_space fun t => isWord_of_mem_words).words_eq

/-- **The two treatments of blanks agree.** Joined with single spaces the words of a text
are its plain form, and the plain form has the same words. They are words, and a text has
the words that it joins by runs of blanks, between blanks of its own, and no others. -/
theorem words_agree_with_plain (s : Text) :
    joinWith [' '] (words s) = plain s
      ∧ words (plain s) = words s
      ∧ (∀ t ∈ words s, IsWord t)
      ∧ ∀ ts, words s = ts ↔ (∀ t ∈ ts, IsWord t)
        ∧ ∃ b m e, AllBlank b ∧ AllBlank e ∧ JoinedByBlanks ts m ∧ s = b ++ m ++ e := by
  refine ⟨(plain_eq_joinWith s).symm, words_plain s, fun t => isWord_of_mem_words, fun ts => ?_⟩
  rw [words_eq_iff, spreads_iff_joined]

/-- Blanks of several kinds, a run of two between the first words and another behind the
last: an ideographic space, a line separator, a no-break space and an information
separator. -/
theorem words_agree_with_plain_of_odd_blanks :
    let s := "\u3000a<\u2028 >b\u00a0c\x1c\n".toList
    let ts := ["a<".toList, ">b".toList, "c".toList]
    words s = ts ∧ plain s = "a< >b c".toList ∧ words "a< >b c".toList = ts := by
  intro s ts
  have hjoined : JoinedByBlanks ts "a<\u2028 >b\u00a0c".toList :=
    .cons "a<".toList "\u2028 ".toList (by decide) (by decide)
      (.cons ">b".toList "\u00a0".toList (by decide) (by decide) (.singleton "c".toList))
  have hwords : words s = ts :=
    ((words_agree_with_plain s).2.2.2 ts).2 ⟨by decide, "\u3000".toList, _, "\x1c\n".toList,
      by decide, by decide, hjoined, by decide⟩
  have hplain : plain s = "a< >b c".toList := by
    rw [← (words_agree_with_plain s).1, hwords]
    decide
  refine ⟨hwords, hplain, ?_⟩
  rw [← hplain, (words_agree_with_plain s).2.1, hwords]

/-- A text is blank if nothing is left of it. -/
theorem plain_eq_nil_iff {s : Text} : plain s = [] ↔ AllBlank s := by
  rw [← words_eq_nil_iff]
  constructor
  · intro h
    rw [← words_plain, h, words_nil]
  · intro h
    rw [plain_eq_joinWith, h]
    rfl

/-- **The plain form has the characters of the text that are not
blank.** -/
theorem mem_plain {c : Char} (hc : isBlank c = false) (s : Text) :
    c ∈ plain s ↔ c ∈ s := by
  have hmem : ∀ u : Text, c ∈ (words u).flatten ↔ c ∈ u := fun u => by
    rw [flatten_words, List.mem_filter]
    simp [hc]
  rw [← hmem, words_plain, hmem]

/-- A text is what is trimmed off it and what is left. -/
theorem exists_trim_append (s : Text) :
    ∃ b e, AllBlank b ∧ AllBlank e ∧ s = b ++ (trim s ++ e) := by
  refine ⟨s.takeWhile isBlank, (trimLeft s).rtakeWhile isBlank,
    fun c hc => List.mem_takeWhile_imp hc, fun c hc => List.mem_rtakeWhile_imp hc, ?_⟩
  have hright : trim s ++ (trimLeft s).rtakeWhile isBlank = trimLeft s :=
    List.rdropWhile_append_rtakeWhile
  rw [hright]
  exact List.takeWhile_append_dropWhile.symm

/-- Collapsing brings no character in and takes none out, blanks apart. -/
theorem mem_collapse {c : Char} (hc : isBlank c = false) (s : Text) :
    c ∈ collapse s ↔ c ∈ s := by
  obtain ⟨b, e, hb, he, h⟩ := exists_trim_append (collapse s)
  have hb' : c ∉ b := hb.not_mem hc
  have he' : c ∉ e := he.not_mem hc
  rw [← mem_plain hc s, plain, h, List.mem_append, List.mem_append]
  simp [hb', he', ← h]

/-! ## Single spaces -/

/-- **No blank but single spaces.** -/
structure SingleSpaced (s : Text) : Prop where
  /-- Every blank is a space. -/
  eq_space : ∀ c ∈ s, isBlank c = true → c = ' '
  /-- No two of them are neighbours. -/
  single : ¬ [' ', ' '] <:+: s

/-- Part of a text with single spaces has single spaces. -/
theorem SingleSpaced.mono {s t : Text} (h : SingleSpaced s) (ht : t <:+: s) :
    SingleSpaced t :=
  ⟨fun c hc => h.eq_space c (ht.subset hc), fun hi => h.single (hi.trans ht)⟩

/-- A character in front that is not blank leaves single spaces. -/
theorem SingleSpaced.cons {c : Char} (hc : isBlank c = false) {s : Text}
    (h : SingleSpaced s) : SingleSpaced (c :: s) := by
  have hne : c ≠ ' ' := by
    rintro rfl
    exact absurd isBlank_space (by simp [hc])
  refine ⟨fun d hd hb => ?_, fun hi => ?_⟩
  · rcases List.mem_cons.1 hd with rfl | hd
    · exact absurd hb (by simp [hc])
    · exact h.eq_space d hd hb
  · rcases List.infix_cons_iff.1 hi with hp | hi
    · exact hne (List.cons_prefix_cons.1 hp).1.symm
    · exact h.single hi

/-- A space in front of a text that does not open with a blank is
single. -/
theorem SingleSpaced.cons_space {s : Text} (hs : ∀ c ∈ s.head?, isBlank c = false)
    (h : SingleSpaced s) : SingleSpaced (' ' :: s) := by
  refine ⟨fun d hd hb => ?_, fun hi => ?_⟩
  · rcases List.mem_cons.1 hd with rfl | hd
    · rfl
    · exact h.eq_space d hd hb
  · rcases List.infix_cons_iff.1 hi with hp | hi
    · obtain ⟨t, rfl⟩ := (List.cons_prefix_cons.1 hp).2
      exact absurd (hs ' ' rfl) (by simp)
    · exact h.single hi

/-- Trimming on the left leaves no blank in front. -/
theorem not_isBlank_head_trimLeft (s : Text) :
    ∀ c ∈ (trimLeft s).head?, isBlank c = false := by
  intro c hc
  have h := List.head?_dropWhile_not isBlank s
  rw [trimLeft] at hc
  rw [Option.mem_def.1 hc] at h
  simpa using h

/-- Trimming leaves no blank in front. -/
theorem not_isBlank_head_trim (s : Text) : ∀ c ∈ (trim s).head?, isBlank c = false := by
  intro c hc
  obtain ⟨t, ht⟩ : trim s <+: trimLeft s := List.rdropWhile_prefix _ _
  refine not_isBlank_head_trimLeft s c ?_
  rw [← ht, List.head?_append, Option.mem_def.1 hc]
  rfl

/-- Trimming leaves no blank at the end. -/
theorem not_isBlank_last_trim (s : Text) : ∀ c ∈ (trim s).getLast?, isBlank c = false := by
  intro c hc
  obtain ⟨hne, rfl⟩ := List.mem_getLast?_eq_getLast hc
  exact Bool.eq_false_iff.2 (List.rdropWhile_last_not isBlank (trimLeft s) hne)

/-- **A collapsed text has single spaces.** -/
theorem singleSpaced_collapse (s : Text) : SingleSpaced (collapse s) := by
  induction s with
  | nil => exact ⟨fun c hc => absurd hc List.not_mem_nil, by simp [collapse]⟩
  | cons c s ih =>
    cases hc : isBlank c with
    | true =>
      have hpart : trimLeft (collapse s) <:+: collapse s := (List.dropWhile_suffix _).isInfix
      rw [collapse_cons_of_isBlank hc]
      exact (ih.mono hpart).cons_space (not_isBlank_head_trimLeft _)
    | false =>
      rw [collapse_cons_of_not_isBlank hc]
      exact ih.cons hc

/-- What is trimmed is part of the text. -/
theorem trim_isInfix (s : Text) : trim s <:+: s :=
  (List.rdropWhile_prefix _ _).isInfix.trans (List.dropWhile_suffix _).isInfix

/-- **A plain form has single spaces.** -/
theorem singleSpaced_plain (s : Text) : SingleSpaced (plain s) :=
  (singleSpaced_collapse s).mono (trim_isInfix _)

/-- Single spaces are not collapsed. -/
theorem SingleSpaced.collapse_eq {s : Text} (h : SingleSpaced s) : collapse s = s := by
  induction s with
  | nil => rfl
  | cons c s ih =>
    have hs := ih (h.mono (List.suffix_cons c s).isInfix)
    cases hc : isBlank c with
    | false => rw [collapse_cons_of_not_isBlank hc, hs]
    | true =>
      obtain rfl := h.eq_space c List.mem_cons_self hc
      rw [collapse_cons_of_isBlank hc, hs]
      cases s with
      | nil => rfl
      | cons d s =>
        cases hd : isBlank d with
        | false => rw [trimLeft_cons_of_not_isBlank hd]
        | true =>
          obtain rfl := h.eq_space d (List.mem_cons_of_mem _ List.mem_cons_self) hd
          exact absurd ⟨[], s, rfl⟩ h.single

/-- A text has single spaces if collapsing leaves it as it is. -/
theorem singleSpaced_iff {s : Text} : SingleSpaced s ↔ collapse s = s := by
  constructor
  · exact SingleSpaced.collapse_eq
  · intro h
    rw [← h]
    exact singleSpaced_collapse s

instance : DecidablePred SingleSpaced := fun _ => decidable_of_iff' _ singleSpaced_iff

/-- **A text with single spaces and no blank at its ends is its plain
form.** -/
theorem SingleSpaced.plain_eq {s : Text} (h : SingleSpaced s)
    (hhead : ∀ c ∈ s.head?, isBlank c = false)
    (hlast : ∀ c ∈ s.getLast?, isBlank c = false) : plain s = s := by
  have hleft : trimLeft s = s := by
    cases s with
    | nil => rfl
    | cons c s => exact trimLeft_cons_of_not_isBlank (hhead c rfl) s
  have hright : trimRight s = s := List.rdropWhile_eq_self_iff.2 fun hne => by
    simp [hlast _ (List.getLast?_eq_some_getLast hne)]
  unfold plain trim
  rw [h.collapse_eq, hleft, hright]

/-! ## Cutting at a character that is not blank -/

/-- A character that is not blank stops the trimming on the left. -/
theorem trimLeft_append_cons {c : Char} (hc : isBlank c = false) (s t : Text) :
    trimLeft (s ++ c :: t) = trimLeft s ++ c :: t := by
  rw [trimLeft, List.dropWhile_append]
  split
  · next h =>
    rw [trimLeft, List.isEmpty_iff.1 h, List.dropWhile_cons_of_neg (by simp [hc]),
      List.nil_append]
  · rfl

/-- **Collapsing goes through a character that is not blank.** -/
theorem collapse_append_cons {c : Char} (hc : isBlank c = false) (s t : Text) :
    collapse (s ++ c :: t) = collapse s ++ c :: collapse t := by
  induction s with
  | nil => exact collapse_cons_of_not_isBlank hc t
  | cons d s ih =>
    cases hd : isBlank d with
    | true =>
      rw [List.cons_append, collapse_cons_of_isBlank hd, collapse_cons_of_isBlank hd, ih,
        trimLeft_append_cons hc, List.cons_append]
    | false =>
      rw [List.cons_append, collapse_cons_of_not_isBlank hd, collapse_cons_of_not_isBlank hd,
        ih, List.cons_append]

/-- **The plain form keeps a last character that is not blank**, and what
is in front of it is only trimmed on the left. -/
theorem plain_concat {c : Char} (hc : isBlank c = false) (s : Text) :
    plain (s ++ [c]) = trimLeft (collapse s) ++ [c] := by
  unfold plain trim
  rw [collapse_append_cons hc, trimLeft_append_cons hc]
  exact List.rdropWhile_concat_neg _ _ _ (by simp [hc])

/-- A character in front that is not blank stays in front. -/
theorem head?_plain_cons {c : Char} (hc : isBlank c = false) (s : Text) :
    (plain (c :: s)).head? = some c := by
  have hne : trimRight (c :: collapse s) ≠ [] := by
    intro hnil
    have hall := List.rdropWhile_eq_nil_iff.1 hnil c List.mem_cons_self
    rw [hc] at hall
    exact Bool.false_ne_true hall
  obtain ⟨t, ht⟩ : trimRight (c :: collapse s) <+: c :: collapse s :=
    List.rdropWhile_prefix _ _
  obtain ⟨d, u, hu⟩ := List.exists_cons_of_ne_nil hne
  rw [hu, List.cons_append] at ht
  rw [plain, collapse_cons_of_not_isBlank hc, trim, trimLeft_cons_of_not_isBlank hc, hu,
    (List.cons.inj ht).1]
  rfl

/-! ## Pieces -/

/-- A text has a single piece if the separator is not in it. -/
theorem pieces_of_not_mem {sep : Char} {s : Text} (h : sep ∉ s) :
    pieces sep s = [s] := by
  induction s with
  | nil => rfl
  | cons c s ih =>
    rw [List.mem_cons, not_or] at h
    rw [pieces, if_neg (Ne.symm h.1), ih h.2]

/-- **The first piece ends at the first separator.** -/
theorem pieces_append_cons {sep : Char} {p : Text} (h : sep ∉ p) (s : Text) :
    pieces sep (p ++ sep :: s) = p :: pieces sep s := by
  induction p with
  | nil => exact if_pos rfl
  | cons c p ih =>
    rw [List.mem_cons, not_or] at h
    rw [List.cons_append, pieces, if_neg (Ne.symm h.1), ih h.2]

/-- **A text is cut at its first separator in one way only.** -/
theorem append_cons_inj {sep : Char} {p p' s s' : Text} (hp : sep ∉ p) (hp' : sep ∉ p')
    (h : p ++ sep :: s = p' ++ sep :: s') : p = p' ∧ s = s' := by
  have hpieces := congrArg (pieces sep) h
  rw [pieces_append_cons hp, pieces_append_cons hp'] at hpieces
  obtain rfl := (List.cons.inj hpieces).1
  exact ⟨rfl, (List.cons.inj (List.append_cancel_left h)).2⟩

/-- **Texts by their pieces**: one piece, or one in front of a separator
and a text. -/
theorem pieces_induction (sep : Char) {motive : Text → Prop}
    (one : ∀ p, sep ∉ p → motive p)
    (more : ∀ p s, sep ∉ p → motive s → motive (p ++ sep :: s)) (s : Text) :
    motive s := by
  induction hn : s.length using Nat.strong_induction_on generalizing s with
  | _ n ih =>
    by_cases h : sep ∈ s
    · obtain ⟨p, t, rfl, hp⟩ := List.eq_append_cons_of_mem h
      refine more p t hp (ih t.length ?_ t rfl)
      rw [← hn, List.length_append, List.length_cons]
      omega
    · exact one s h

/-- **The pieces on both sides of a separator** are the pieces. -/
theorem pieces_append (sep : Char) (s t : Text) :
    pieces sep (s ++ sep :: t) = pieces sep s ++ pieces sep t := by
  induction s using pieces_induction sep with
  | one p hp => rw [pieces_append_cons hp, pieces_of_not_mem hp, List.singleton_append]
  | more p s hp ih =>
    rw [List.append_assoc, List.cons_append, pieces_append_cons hp, pieces_append_cons hp, ih,
      List.cons_append]

/-- No piece holds the separator. -/
theorem not_mem_of_mem_pieces {sep : Char} {s p : Text} (h : p ∈ pieces sep s) :
    sep ∉ p := by
  induction s using pieces_induction sep with
  | one q hq =>
    rw [pieces_of_not_mem hq, List.mem_singleton] at h
    exact h ▸ hq
  | more q s hq ih =>
    rw [pieces_append_cons hq] at h
    rcases List.mem_cons.1 h with rfl | h
    · exact hq
    · exact ih h

/-- A character of a piece is one of the text. -/
theorem mem_of_mem_pieces {sep : Char} {s p : Text} (h : p ∈ pieces sep s)
    {c : Char} (hc : c ∈ p) : c ∈ s := by
  induction s using pieces_induction sep with
  | one q hq =>
    rw [pieces_of_not_mem hq, List.mem_singleton] at h
    exact h ▸ hc
  | more q s hq ih =>
    rw [pieces_append_cons hq] at h
    rcases List.mem_cons.1 h with rfl | h
    · exact List.mem_append_left _ hc
    · exact List.mem_append_right _ (List.mem_cons_of_mem _ (ih h))

/-! ## The pieces of a plain form -/

section Pieces

variable {sep : Char}

/-- The pieces of a collapsed text are the collapsed pieces. -/
theorem pieces_collapse (hsep : isBlank sep = false) (s : Text) :
    pieces sep (collapse s) = (pieces sep s).map collapse := by
  induction s using pieces_induction sep with
  | one p hp =>
    rw [pieces_of_not_mem hp, pieces_of_not_mem (mt (mem_collapse hsep p).1 hp)]
    rfl
  | more p s hp ih =>
    rw [collapse_append_cons hsep, pieces_append_cons hp,
      pieces_append_cons (mt (mem_collapse hsep p).1 hp), ih, List.map_cons]

/-- Blanks in front of a text are trimmed off its first piece. -/
theorem map_trim_pieces_append_left (hsep : isBlank sep = false) {b : Text}
    (hb : AllBlank b) (s : Text) :
    (pieces sep (b ++ s)).map trim = (pieces sep s).map trim := by
  have hnot : sep ∉ b := hb.not_mem hsep
  have htrim : ∀ p : Text, trim (b ++ p) = trim p := fun p => by
    rw [trim, trimLeft_append_of_allBlank hb, trim]
  induction s using pieces_induction sep with
  | one p hp =>
    rw [pieces_of_not_mem hp, pieces_of_not_mem (by simp [hnot, hp]), List.map_singleton,
      htrim, List.map_singleton]
  | more p s hp _ =>
    rw [← List.append_assoc, pieces_append_cons hp, pieces_append_cons (by simp [hnot, hp]),
      List.map_cons, htrim, List.map_cons]

/-- Blanks behind a text are trimmed off its last piece. -/
theorem map_trim_pieces_append_right (hsep : isBlank sep = false) {b : Text}
    (hb : AllBlank b) (s : Text) :
    (pieces sep (s ++ b)).map trim = (pieces sep s).map trim := by
  have hnot : sep ∉ b := hb.not_mem hsep
  induction s using pieces_induction sep with
  | one p hp =>
    have htrim : trim (p ++ b) = trim p := by
      rw [trim, trim, trimLeft, List.dropWhile_append]
      split
      · next h =>
        rw [trimLeft, List.isEmpty_iff.1 h, List.dropWhile_eq_nil_iff.2 hb]
      · exact trimRight_append_of_allBlank hb _
    rw [pieces_of_not_mem hp, pieces_of_not_mem (by simp [hnot, hp]), List.map_singleton,
      htrim, List.map_singleton]
  | more p s hp ih =>
    rw [List.append_assoc, List.cons_append, pieces_append_cons hp, pieces_append_cons hp,
      List.map_cons, ih, List.map_cons]

/-- **The pieces of a plain form are, trimmed, the plain forms of the
pieces**: whether the blanks are treated before the cut or after it makes
no difference. -/
theorem map_trim_pieces_plain (hsep : isBlank sep = false) (s : Text) :
    (pieces sep (plain s)).map trim = (pieces sep s).map plain := by
  have htrim : (pieces sep (plain s)).map trim = (pieces sep (collapse s)).map trim := by
    obtain ⟨b, e, hb, he, h⟩ := exists_trim_append (collapse s)
    conv_rhs => rw [h]
    rw [map_trim_pieces_append_left hsep hb, map_trim_pieces_append_right hsep he]
    rfl
  rw [htrim, pieces_collapse hsep, List.map_map]
  rfl

end Pieces

end SentenceForge.Text

import Mathlib.Data.List.Basic
import SentenceForge.Text.Blank

/-!
# Words

A text is its words spread with blanks: in front, behind, and a non-empty
run between any two. `Spreads` is that relation, and the words of a text
are those it spreads (`words_eq_iff`). What a text is cut into is thereby
settled by laying it out, without following the scan.

`Spreads` goes from word to word, each with the blanks in front of it. Said
the other way, the words are joined by runs of blanks, and blanks are put
around the whole (`spreads_iff_joined`).

Blanks are all that is lost: together the words are the characters of the
text that are not blank (`flatten_words`).
-/

namespace SentenceForge.Text

/-- A run of blanks, which may be empty. -/
def AllBlank (s : Text) : Prop := ∀ c ∈ s, isBlank c = true

/-- **A word**: not empty, and no blank in it. -/
def IsWord (t : Text) : Prop := t ≠ [] ∧ ∀ c ∈ t, isBlank c = false

instance : DecidablePred AllBlank := fun s => List.decidableBAll _ s

instance : DecidablePred IsWord := fun t =>
  @instDecidableAnd _ _ inferInstance (List.decidableBAll _ t)

/-- What does not run on from a word before it: nothing, or a text that
opens with a blank. -/
def SetsOff (s : Text) : Prop := ∀ c ∈ s.head?, isBlank c = true

/-- **The words of a list spread over a text**: blanks may stand in front
and behind, and must stand between. -/
inductive Spreads : List Text → Text → Prop where
  /-- Blanks spread no word. -/
  | blank {b : Text} (hb : AllBlank b) : Spreads [] b
  /-- A word and the rest, which does not run on from it. -/
  | word {b t s : Text} {ts : List Text} (hb : AllBlank b) (ht : IsWord t)
      (hs : SetsOff s) (rest : Spreads ts s) : Spreads (t :: ts) (b ++ t ++ s)

/-! ## Runs of blanks -/

/-- The empty run. -/
@[simp] theorem allBlank_nil : AllBlank [] := fun _ h => absurd h List.not_mem_nil

/-- A run and what is in front of it. -/
@[simp] theorem allBlank_cons (c : Char) (s : Text) :
    AllBlank (c :: s) ↔ isBlank c = true ∧ AllBlank s := List.forall_mem_cons

/-- Two runs make a run. -/
@[simp] theorem allBlank_append (s t : Text) :
    AllBlank (s ++ t) ↔ AllBlank s ∧ AllBlank t := List.forall_mem_append

/-- The empty text sets off. -/
@[simp] theorem setsOff_nil : SetsOff [] := fun _ h => nomatch h

/-- A text sets off if it opens with a blank. -/
@[simp] theorem setsOff_cons (c : Char) (s : Text) :
    SetsOff (c :: s) ↔ isBlank c = true := by
  simp [SetsOff]

/-- A run of blanks sets off. -/
theorem AllBlank.setsOff {b : Text} (h : AllBlank b) : SetsOff b := by
  cases b with
  | nil => exact setsOff_nil
  | cons c b => exact (setsOff_cons c b).2 ((allBlank_cons c b).1 h).1

/-- What is not blank is in no run of blanks. -/
theorem AllBlank.not_mem {b : Text} (h : AllBlank b) {c : Char} (hc : isBlank c = false) :
    c ∉ b := fun hm => by
  rw [h c hm] at hc
  exact Bool.false_ne_true hc.symm

/-- A word opens with a character that is not blank. -/
theorem IsWord.exists_cons {t : Text} (h : IsWord t) :
    ∃ c s, t = c :: s ∧ isBlank c = false := by
  cases t with
  | nil => exact absurd rfl h.1
  | cons c s => exact ⟨c, s, rfl, h.2 c List.mem_cons_self⟩

/-! ## A text spreads its words -/

/-- A blank in front spreads the same words. -/
theorem Spreads.cons_blank {c : Char} (hc : isBlank c = true) {s : Text}
    {ts : List Text} (h : Spreads ts s) : Spreads ts (c :: s) := by
  cases h with
  | blank hb => exact .blank ((allBlank_cons c s).2 ⟨hc, hb⟩)
  | @word b t s ts hb ht hs rest =>
    exact .word ((allBlank_cons c b).2 ⟨hc, hb⟩) ht hs rest

/-- A character in front that is not blank, before a text that sets off,
is a word of its own. -/
theorem Spreads.cons_word {c : Char} (hc : isBlank c = false) {s : Text}
    {ts : List Text} (hs : SetsOff s) (h : Spreads ts s) :
    Spreads ([c] :: ts) (c :: s) :=
  .word (b := []) (t := [c]) allBlank_nil ⟨List.cons_ne_nil c [], by simp [hc]⟩ hs h

/-- A character in front that is not blank, before one that is not, joins
the first word. -/
theorem Spreads.cons_join {c d : Char} (hc : isBlank c = false)
    (hd : isBlank d = false) {s t : Text} {ts : List Text}
    (h : Spreads (t :: ts) (d :: s)) : Spreads ((c :: t) :: ts) (c :: d :: s) := by
  generalize hu : d :: s = u at h
  cases h with
  | @word b t s' ts hb ht hs rest =>
    cases b with
    | nil =>
      refine .word (b := []) (t := c :: t) allBlank_nil ⟨List.cons_ne_nil c t, ?_⟩ hs rest
      exact List.forall_mem_cons.2 ⟨hc, ht.2⟩
    | cons e b =>
      -- the first word starts with `d`, so no blank is in front of it
      rw [List.cons_append, List.cons_append, List.cons.injEq] at hu
      rw [hu.1, ((allBlank_cons e b).1 hb).1] at hd
      exact absurd hd (by simp)

/-! ## The words by the first character -/

/-- A single character that is not blank is a word. -/
theorem words_singleton {c : Char} (hc : isBlank c = false) : words [c] = [[c]] :=
  if_neg (by simp [hc])

/-- In front of a blank a character is a word of its own. -/
theorem words_cons_of_isBlank_next {c d : Char} (hc : isBlank c = false)
    (hd : isBlank d = true) (s : Text) : words (c :: d :: s) = [c] :: words (d :: s) :=
  (if_neg (by simp [hc])).trans (if_pos hd)

/-- In front of a word a character belongs to it. -/
theorem words_cons_of_words {c d : Char} (hc : isBlank c = false) (hd : isBlank d = false)
    {s w : Text} {ws : List Text} (hw : words (d :: s) = w :: ws) :
    words (c :: d :: s) = (c :: w) :: ws := by
  refine (if_neg (by simp [hc])).trans ((if_neg (by simp [hd])).trans ?_)
  rw [hw]

/-- **A text spreads its words.** -/
theorem spreads_words (s : Text) : Spreads (words s) s := by
  induction s with
  | nil => exact .blank allBlank_nil
  | cons c s ih =>
    cases hc : isBlank c with
    | true =>
      rw [words_cons_of_isBlank hc]
      exact ih.cons_blank hc
    | false =>
      cases s with
      | nil =>
        rw [words_singleton hc]
        exact .cons_word hc setsOff_nil (.blank allBlank_nil)
      | cons d s =>
        cases hd : isBlank d with
        | true =>
          rw [words_cons_of_isBlank_next hc hd]
          exact ih.cons_word hc ((setsOff_cons d s).2 hd)
        | false =>
          cases hw : words (d :: s) with
          | nil =>
            -- a text without words is blank, and this one opens with `d`
            rw [hw] at ih
            cases ih with
            | blank hb =>
              rw [((allBlank_cons d s).1 hb).1] at hd
              exact absurd hd (by simp)
          | cons w ws =>
            rw [words_cons_of_words hc hd hw]
            rw [hw] at ih
            exact ih.cons_join hc hd

/-! ## The words of a spread -/

/-- Blanks in front add no word. -/
theorem words_append_of_allBlank {b : Text} (hb : AllBlank b) (s : Text) :
    words (b ++ s) = words s := by
  induction b with
  | nil => rfl
  | cons c b ih =>
    rw [allBlank_cons] at hb
    rw [List.cons_append, words_cons_of_isBlank hb.1, ih hb.2]

/-- **A word is read up to what sets off.** -/
theorem words_word_append {t s : Text} (ht : IsWord t) (hs : SetsOff s) :
    words (t ++ s) = t :: words s := by
  obtain ⟨hne, hall⟩ := ht
  induction t with
  | nil => exact absurd rfl hne
  | cons c t ih =>
    have hc : isBlank c = false := hall c List.mem_cons_self
    cases t with
    | nil =>
      cases s with
      | nil => exact words_singleton hc
      | cons d s => exact words_cons_of_isBlank_next hc ((setsOff_cons d s).1 hs) s
    | cons d t =>
      have hd : isBlank d = false :=
        hall d (List.mem_cons_of_mem c List.mem_cons_self)
      have htail := ih (List.cons_ne_nil d t)
        fun e he => hall e (List.mem_cons_of_mem c he)
      exact words_cons_of_words hc hd htail

/-- **The words of a text are those it spreads.** -/
theorem Spreads.words_eq {ts : List Text} {s : Text} (h : Spreads ts s) :
    words s = ts := by
  induction h with
  | blank hb => simpa using words_append_of_allBlank hb []
  | @word b t s ts hb ht hs _ ih =>
    rw [List.append_assoc, words_append_of_allBlank hb, words_word_append ht hs, ih]

/-- **A text has the words it spreads, and no others.** -/
theorem words_eq_iff {ts : List Text} {s : Text} :
    words s = ts ↔ Spreads ts s :=
  ⟨fun h => h ▸ spreads_words s, Spreads.words_eq⟩

/-- What a text spreads are words. -/
theorem Spreads.isWord {ts : List Text} {s : Text} (h : Spreads ts s) :
    ∀ t ∈ ts, IsWord t := by
  induction h with
  | blank => exact fun t ht => absurd ht List.not_mem_nil
  | word _ ht _ _ ih => exact List.forall_mem_cons.2 ⟨ht, ih⟩

/-- **Every word of a text is a word.** -/
theorem isWord_of_mem_words {s t : Text} (h : t ∈ words s) : IsWord t :=
  (spreads_words s).isWord t h

/-- The words of a spread are what is not blank in it. -/
theorem Spreads.flatten_eq {ts : List Text} {s : Text} (h : Spreads ts s) :
    ts.flatten = s.filter (!isBlank ·) := by
  induction h with
  | blank hb => exact (List.filter_eq_nil_iff.2 fun c hc => by simp [hb c hc]).symm
  | @word b t s ts hb ht _ _ ih =>
    have hb' : b.filter (!isBlank ·) = [] :=
      List.filter_eq_nil_iff.2 fun c hc => by simp [hb c hc]
    have ht' : t.filter (!isBlank ·) = t :=
      List.filter_eq_self.2 fun c hc => by simp [ht.2 c hc]
    rw [List.filter_append, List.filter_append, hb', ht', ← ih]
    rfl

/-- **The words lose nothing but blanks.** -/
theorem flatten_words (s : Text) : (words s).flatten = s.filter (!isBlank ·) :=
  (spreads_words s).flatten_eq

/-- **What is not blank in a text is in one of the words** it spreads. -/
theorem Spreads.not_mem {ts : List Text} {s : Text} (h : Spreads ts s) {c : Char}
    (hc : isBlank c = false) (hts : ∀ t ∈ ts, c ∉ t) : c ∉ s := by
  intro hm
  have hflat : c ∈ ts.flatten := by
    rw [h.flatten_eq, List.mem_filter]
    exact ⟨hm, by simp [hc]⟩
  obtain ⟨t, ht, hct⟩ := List.mem_flatten.1 hflat
  exact hts t ht hct

/-- A character of a word is one of the text. -/
theorem mem_of_mem_words {s t : Text} {c : Char} (ht : t ∈ words s)
    (hc : c ∈ t) : c ∈ s := by
  have h : c ∈ (words s).flatten := List.mem_flatten.2 ⟨t, ht, hc⟩
  rw [flatten_words] at h
  exact List.mem_of_mem_filter h

/-- A text without words is blank. -/
theorem words_eq_nil_iff {s : Text} : words s = [] ↔ AllBlank s := by
  rw [words_eq_iff]
  constructor
  · intro h
    cases h with
    | blank hb => exact hb
  · exact .blank

/-! ## Words with blanks between them -/

/-- Texts joined, the first apart. -/
theorem joinWith_cons (sep t : Text) {ts : List Text} (h : ts ≠ []) :
    joinWith sep (t :: ts) = t ++ sep ++ joinWith sep ts := by
  cases ts with
  | nil => exact absurd rfl h
  | cons u ts => rfl

/-- **Texts joined by runs of blanks**, no run empty and each its own. -/
inductive JoinedByBlanks : List Text → Text → Prop where
  /-- Nothing is joined. -/
  | nil : JoinedByBlanks [] []
  /-- One text stays what it is. -/
  | singleton (t : Text) : JoinedByBlanks [t] t
  /-- A run stands between a text and the next. -/
  | cons (t run : Text) {u s : Text} {ts : List Text} (hrun : AllBlank run) (hne : run ≠ [])
      (hs : JoinedByBlanks (u :: ts) s) : JoinedByBlanks (t :: u :: ts) (t ++ run ++ s)

/-- Texts joined by runs of blanks begin with the first. -/
theorem JoinedByBlanks.begins {t m : Text} {ts : List Text} (h : JoinedByBlanks (t :: ts) m) :
    t <+: m := by
  cases h with
  | singleton => exact List.prefix_rfl
  | cons _ run hrun hne hs =>
    rw [List.append_assoc]
    exact List.prefix_append _ _

/-- A separator that is a non-empty run of blanks joins by runs of blanks. -/
theorem joinedByBlanks_joinWith {sep : Text} (hsep : AllBlank sep) (hne : sep ≠ [])
    (ts : List Text) : JoinedByBlanks ts (joinWith sep ts) := by
  induction ts with
  | nil => exact .nil
  | cons t ts ih =>
    cases ts with
    | nil => exact .singleton t
    | cons u ts => exact .cons t sep hsep hne ih

/-- **Words joined by runs of blanks are spread**, whatever blanks stand around them. -/
theorem JoinedByBlanks.spreads {ts : List Text} {m b e : Text} (h : JoinedByBlanks ts m)
    (hts : ∀ t ∈ ts, IsWord t) (hb : AllBlank b) (he : AllBlank e) :
    Spreads ts (b ++ m ++ e) := by
  induction h generalizing b with
  | nil => exact .blank (by simp [hb, he])
  | singleton t => exact .word hb (hts t List.mem_cons_self) he.setsOff (.blank he)
  | @cons t run u s ts hrun hne hs ih =>
    rw [List.forall_mem_cons] at hts
    have hoff : SetsOff (run ++ s ++ e) := by
      obtain ⟨c, run, rfl⟩ := List.exists_cons_of_ne_nil hne
      exact (setsOff_cons _ _).2 ((allBlank_cons _ _).1 hrun).1
    have hrest := Spreads.word hb hts.1 hoff (ih hts.2 hrun)
    simpa [List.append_assoc] using hrest

/-- **A text spreads words by joining them** with runs of blanks, between blanks of its
own. -/
theorem spreads_iff_joined {ts : List Text} {s : Text} :
    Spreads ts s ↔ (∀ t ∈ ts, IsWord t)
      ∧ ∃ b m e, AllBlank b ∧ AllBlank e ∧ JoinedByBlanks ts m ∧ s = b ++ m ++ e := by
  constructor
  · intro h
    refine ⟨h.isWord, ?_⟩
    induction h with
    | @blank b hb => exact ⟨b, [], [], hb, allBlank_nil, .nil, by simp⟩
    | @word b t s ts hb ht hs rest ih =>
      obtain ⟨run, m, e, hrun, he, hm, rfl⟩ := ih
      cases ts with
      | nil =>
        cases hm
        exact ⟨b, t, run ++ e, hb, (allBlank_append run e).2 ⟨hrun, he⟩, .singleton t, by simp⟩
      | cons u ts =>
        -- the next word runs on if nothing is in front of it
        have hne : run ≠ [] := by
          rintro rfl
          obtain ⟨c, v, rfl, hc⟩ := (rest.isWord u List.mem_cons_self).exists_cons
          obtain ⟨r, rfl⟩ := hm.begins
          rw [List.nil_append, List.cons_append, List.cons_append, setsOff_cons, hc] at hs
          cases hs
        exact ⟨b, t ++ run ++ m, e, hb, he, .cons t run hrun hne hm, by simp⟩
  · rintro ⟨hts, b, m, e, hb, he, hm, rfl⟩
    exact hm.spreads hts hb he

/-- **Words joined by a non-empty run of blanks are spread**, whatever
blanks stand around them. -/
theorem spreads_joinWith {ts : List Text} (h : ∀ t ∈ ts, IsWord t)
    {b e sep : Text} (hb : AllBlank b) (he : AllBlank e)
    (hsep : AllBlank sep) (hne : sep ≠ []) :
    Spreads ts (b ++ joinWith sep ts ++ e) :=
  (joinedByBlanks_joinWith hsep hne ts).spreads h hb he

/-- A text that is empty or ends with a blank, and what follows it, spread the words
of both. -/
theorem Spreads.append {ts ts' : List Text} {s s' : Text} (h : Spreads ts s)
    (hs : ∀ c ∈ s.getLast?, isBlank c = true) (h' : Spreads ts' s') :
    Spreads (ts ++ ts') (s ++ s') := by
  induction h with
  | @blank b hb => exact words_eq_iff.1 (by rw [words_append_of_allBlank hb, h'.words_eq]; rfl)
  | @word b t r ts hb ht hr _ ih =>
    cases r with
    | nil =>
      -- the last character is one of a word
      obtain ⟨c, hc⟩ := Option.isSome_iff_exists.1 (List.getLast?_isSome.2 ht.1)
      have hblank := hs c (by simp [hc])
      rw [ht.2 c (List.mem_of_getLast? hc)] at hblank
      cases hblank
    | cons d r =>
      rw [List.getLast?_append_of_ne_nil _ (List.cons_ne_nil d r)] at hs
      rw [List.append_assoc]
      exact .word hb ht ((setsOff_cons d _).2 ((setsOff_cons d r).1 hr)) (ih hs)

/-- **A blank parts the words** in front of it from those behind it. -/
theorem words_append_of_getLast? {s : Text} (hs : ∀ c ∈ s.getLast?, isBlank c = true)
    (s' : Text) : words (s ++ s') = words s ++ words s' :=
  ((spreads_words s).append hs (spreads_words s')).words_eq

/-- Words with single spaces between them are spread. -/
theorem spreads_joinWith_space {ts : List Text} (h : ∀ t ∈ ts, IsWord t) :
    Spreads ts (joinWith [' '] ts) := by
  have hsep : AllBlank [' '] := (allBlank_cons ' ' []).2 ⟨isBlank_space, allBlank_nil⟩
  simpa using spreads_joinWith h allBlank_nil allBlank_nil hsep (List.cons_ne_nil _ _)

end SentenceForge.Text

import Mathlib.Data.List.Basic
import SentenceForge.Text.CaseFolding

/-!
# Folding leaves the marks

What a character folds to, if it is not the character itself, lies from the
small letters upwards (`foldChar_eq_self_or`). So folding writes no mark that
was not there, and it takes none away: a text opens and ends with a mark
exactly if its case folding does (`head?_fold_iff`, `getLast?_fold_iff`).

The second part is the reason why the first needs a word on lengths. A
character may fold to several, so positions are not kept; but it never folds
to nothing, and the two ends are.

Nor does folding write anything that would be folded again, so a name that is
folded already is found under itself (`fold_fold`).
-/

namespace SentenceForge.Text

/-! ## What a character folds to -/

/-- The lower case of an ASCII character is the character or a small letter. -/
theorem toLower_eq_self_or : ∀ n < 0x80, (Char.ofNat n).toLower = Char.ofNat n
    ∨ 0x61 ≤ (Char.ofNat n).toLower.toNat := by
  decide

/-- The character with a code has that code. -/
theorem toNat_ofNat {n : Nat} (h : n.isValidChar) : (Char.ofNat n).toNat = n := by
  rw [Char.ofNat, dif_pos h]
  rfl

namespace CaseFolding

/-- Every run has its images among the characters from the small letters
upwards. -/
theorem image_of_mem_runs : ∀ r ∈ runs, 0x61 ≤ r.image
    ∧ (r.image + (r.last - r.first) < 0xD800
      ∨ 0xDFFF < r.image ∧ r.image + (r.last - r.first) < 0x110000) := by
  decide +kernel

/-- So has every expansion, and none is empty. -/
theorem images_of_mem_expansions : ∀ e ∈ expansions, e.2 ≠ []
    ∧ ∀ i ∈ e.2, 0x61 ≤ i ∧ i < 0xD800 := by
  decide +kernel

/-- The characters of a run. -/
def Run.codes (r : Run) : List Nat :=
  (List.range' r.first (r.last + 1 - r.first)).filter fun n => (n - r.first) % r.stride = 0

/-- A character is one of a run if it lies at its stride between its ends. -/
theorem Run.mem_codes {r : Run} {n : Nat} :
    n ∈ r.codes ↔ r.first ≤ n ∧ n ≤ r.last ∧ (n - r.first) % r.stride = 0 := by
  rw [codes, List.mem_filter, List.mem_range'_1, decide_eq_true_eq]
  omega

/-- A run has an image for each of its characters. -/
theorem Run.image?_eq (r : Run) (n : Nat) :
    r.image? n = if n ∈ r.codes then some (n - r.first + r.image) else none := by
  rw [image?]
  simp only [mem_codes]

/-- The characters that the tables fold to. -/
def images : List Nat :=
  (runs.flatMap fun r => r.codes.map fun n => n - r.first + r.image) ++ expansions.flatMap Prod.snd

/-- An image is a character from the small letters upwards. -/
theorem of_mem_images {i : Nat} (h : i ∈ images) : 0x61 ≤ i ∧ i.isValidChar := by
  rw [images, List.mem_append, List.mem_flatMap, List.mem_flatMap] at h
  obtain ⟨r, hr, hi⟩ | ⟨e, he, hi⟩ := h
  · obtain ⟨n, hn, rfl⟩ := List.mem_map.1 hi
    obtain ⟨-, hlast, -⟩ := Run.mem_codes.1 hn
    obtain ⟨hsmall, hvalid⟩ := image_of_mem_runs r hr
    exact ⟨by omega, hvalid.imp (fun h => by omega) fun h => ⟨by omega, by omega⟩⟩
  · obtain ⟨hsmall, hlow⟩ := (images_of_mem_expansions e he).2 i hi
    exact ⟨hsmall, .inl hlow⟩

end CaseFolding

/-- **A character folds to itself, to its lower case or to images of the
tables.** -/
theorem foldChar_cases (c : Char) :
    foldChar c = [c] ∨ (c.toNat < 0x80 ∧ foldChar c = [c.toLower])
      ∨ ∃ is ≠ [], (∀ i ∈ is, i ∈ CaseFolding.images) ∧ foldChar c = is.map Char.ofNat := by
  unfold foldChar
  split
  · next hascii => exact .inr (.inl ⟨hascii, rfl⟩)
  · split
    · next images hlookup =>
      obtain ⟨before, behind, hsplit, -⟩ := List.lookup_eq_some_iff.1 hlookup
      have hmem : (c.toNat, images) ∈ CaseFolding.expansions := by simp [hsplit]
      refine .inr (.inr ⟨images, (CaseFolding.images_of_mem_expansions _ hmem).1, ?_, rfl⟩)
      exact fun i hi => List.mem_append_right _ (List.mem_flatMap.2 ⟨_, hmem, hi⟩)
    · split
      · next image hfound =>
        obtain ⟨r, hr, himage⟩ := List.exists_of_findSome?_eq_some hfound
        rw [CaseFolding.Run.image?_eq, Option.ite_none_right_eq_some] at himage
        obtain ⟨hcode, himage⟩ := himage
        refine .inr (.inr ⟨[image], List.cons_ne_nil _ _, ?_, rfl⟩)
        rw [List.forall_mem_singleton, ← Option.some.inj himage]
        exact List.mem_append_left _ (List.mem_flatMap.2 ⟨r, hr, List.mem_map_of_mem hcode⟩)
      · exact .inl rfl

/-- **A character folds to itself or to letters from the small ones upwards**,
and never to nothing. -/
theorem foldChar_eq_self_or (c : Char) :
    foldChar c = [c] ∨ foldChar c ≠ [] ∧ ∀ d ∈ foldChar c, 0x61 ≤ d.toNat := by
  obtain h | ⟨hascii, h⟩ | ⟨is, hne, his, h⟩ := foldChar_cases c
  · exact .inl h
  · rw [h]
    have hlower := toLower_eq_self_or c.toNat hascii
    rw [Char.ofNat_toNat] at hlower
    obtain hc | hc := hlower
    · exact .inl (by rw [hc])
    · exact .inr ⟨List.cons_ne_nil _ _, by simpa using hc⟩
  · rw [h]
    refine .inr ⟨mt List.map_eq_nil_iff.1 hne, fun d hd => ?_⟩
    obtain ⟨i, hi, rfl⟩ := List.mem_map.1 hd
    obtain ⟨hsmall, hvalid⟩ := CaseFolding.of_mem_images (his i hi)
    rwa [toNat_ofNat hvalid]

/-- A character never folds to nothing. -/
theorem foldChar_ne_nil (c : Char) : foldChar c ≠ [] := by
  rcases foldChar_eq_self_or c with h | ⟨h, -⟩
  · rw [h]
    exact List.cons_ne_nil c []
  · exact h

/-! ## Marks -/

/-- **A mark** is in front of the small letters and folds to itself. -/
structure IsMark (d : Char) : Prop where
  /-- It is in front of the small letters. -/
  lt : d.toNat < 0x61
  /-- It folds to itself. -/
  foldChar_eq : foldChar d = [d]

theorem isMark_open : IsMark '<' := ⟨by decide, by decide⟩

theorem isMark_close : IsMark '>' := ⟨by decide, by decide⟩

theorem isMark_space : IsMark ' ' := ⟨by decide, by decide⟩

/-- **Nothing but a mark folds to it.** -/
theorem IsMark.eq_of_mem_foldChar {d : Char} (hd : IsMark d) {c : Char} (h : d ∈ foldChar c) :
    c = d := by
  rcases foldChar_eq_self_or c with hc | ⟨-, hc⟩
  · rw [hc, List.mem_singleton] at h
    exact h.symm
  · exact absurd hd.lt (Nat.not_lt.2 (hc d h))

/-- **A mark is in a text exactly if it is in its case folding.** -/
theorem mem_fold_iff {d : Char} (hd : IsMark d) (t : Text) : d ∈ fold t ↔ d ∈ t := by
  rw [fold, List.mem_flatMap]
  constructor
  · rintro ⟨c, hc, hdc⟩
    rwa [← hd.eq_of_mem_foldChar hdc]
  · intro h
    exact ⟨d, h, hd.foldChar_eq ▸ List.mem_singleton_self d⟩

/-- **A text opens with a mark exactly if its case folding does.** -/
theorem head?_fold_iff {d : Char} (hd : IsMark d) (t : Text) :
    (fold t).head? = some d ↔ t.head? = some d := by
  cases t with
  | nil => rfl
  | cons c t =>
    rw [fold_cons, List.head?_append_of_ne_nil _ (foldChar_ne_nil c), List.head?_cons]
    constructor
    · intro h
      rw [hd.eq_of_mem_foldChar (List.mem_of_head? h)]
    · intro h
      rw [Option.some.inj h, hd.foldChar_eq]
      rfl

/-- **A text ends with a mark exactly if its case folding does.** -/
theorem getLast?_fold_iff {d : Char} (hd : IsMark d) (t : Text) :
    (fold t).getLast? = some d ↔ t.getLast? = some d := by
  rcases List.eq_nil_or_concat t with rfl | ⟨t, c, rfl⟩
  · rfl
  · have hlast : fold (t ++ [c]) = fold t ++ foldChar c := by simp
    rw [List.concat_eq_append, hlast, List.getLast?_append_of_ne_nil _ (foldChar_ne_nil c),
      List.getLast?_concat]
    constructor
    · intro h
      rw [hd.eq_of_mem_foldChar (List.mem_of_getLast? h)]
    · intro h
      rw [Option.some.inj h, hd.foldChar_eq]
      rfl

/-! ## Folding twice -/

namespace CaseFolding

/-- The characters that the tables fold. -/
def changed : List Nat := runs.flatMap Run.codes ++ expansions.map Prod.fst

/-- Numbers as the bits of one. -/
def bits (ns : List Nat) : Nat := ns.foldr (fun n m => m ||| 1 <<< n) 0

/-- The bits that are set are those of the numbers. -/
theorem testBit_bits (ns : List Nat) (i : Nat) : (bits ns).testBit i = true ↔ i ∈ ns := by
  induction ns with
  | nil => simp [bits]
  | cons n ns ih =>
    show (bits ns ||| 1 <<< n).testBit i = true ↔ i ∈ n :: ns
    rw [Nat.testBit_or, Bool.or_eq_true, ih, Nat.one_shiftLeft, Nat.testBit_two_pow,
      decide_eq_true_eq, List.mem_cons, or_comm, eq_comm]

/-- **No image is folded any further.** There are more than a thousand of each
kind, so they are not compared one by one but as the bits of two numbers. -/
theorem not_mem_changed_of_mem_images {i : Nat} (h : i ∈ images) : i ∉ changed := by
  have hapart : bits images &&& bits changed = 0 := by decide +kernel
  intro hchanged
  have hbit : (bits images &&& bits changed).testBit i = true := by
    rw [Nat.testBit_and, Bool.and_eq_true]
    exact ⟨(testBit_bits _ _).2 h, (testBit_bits _ _).2 hchanged⟩
  rw [hapart, Nat.zero_testBit] at hbit
  cases hbit

end CaseFolding

/-- The lower case of an ASCII letter folds to itself. -/
theorem foldChar_toLower : ∀ n < 0x80,
    foldChar (Char.ofNat n).toLower = [(Char.ofNat n).toLower] := by
  decide

/-- From the small letters upwards ASCII folds to itself. -/
theorem foldChar_of_small : ∀ n < 0x80, 0x61 ≤ n → foldChar (Char.ofNat n) = [Char.ofNat n] := by
  decide

/-- Beyond ASCII a character that the tables do not fold folds to itself. -/
theorem foldChar_of_not_mem_changed {c : Char} (hc : ¬ c.toNat < 0x80)
    (h : c.toNat ∉ CaseFolding.changed) : foldChar c = [c] := by
  rw [CaseFolding.changed, List.mem_append, not_or] at h
  have hlookup : CaseFolding.expansions.lookup c.toNat = none := by
    refine List.lookup_eq_none_iff.2 fun e he => ?_
    exact bne_iff_ne.2 fun heq => h.2 (heq ▸ List.mem_map_of_mem he)
  have hfound : CaseFolding.runs.findSome? (·.image? c.toNat) = none := by
    refine List.findSome?_eq_none_iff.2 fun r hr => ?_
    rw [CaseFolding.Run.image?_eq, if_neg fun hcode => h.1 (List.mem_flatMap.2 ⟨r, hr, hcode⟩)]
  rw [foldChar, if_neg hc, hlookup]
  simp only [hfound]

/-- **What a character folds to folds to itself.** -/
theorem foldChar_of_mem_foldChar {c d : Char} (h : d ∈ foldChar c) : foldChar d = [d] := by
  obtain hc | ⟨hascii, hc⟩ | ⟨is, -, his, hc⟩ := foldChar_cases c
  · rw [hc, List.mem_singleton] at h
    rw [h, hc]
  · rw [hc, List.mem_singleton] at h
    rw [h, ← Char.ofNat_toNat c]
    exact foldChar_toLower c.toNat hascii
  · rw [hc] at h
    obtain ⟨i, hi, rfl⟩ := List.mem_map.1 h
    obtain ⟨hsmall, hvalid⟩ := CaseFolding.of_mem_images (his i hi)
    have hcode := toNat_ofNat hvalid
    by_cases hascii : i < 0x80
    · exact foldChar_of_small i hascii hsmall
    · refine foldChar_of_not_mem_changed (by rwa [hcode]) ?_
      rw [hcode]
      exact CaseFolding.not_mem_changed_of_mem_images (his i hi)

/-- **Folding a text twice is folding it once.** -/
@[simp] theorem fold_fold (t : Text) : fold (fold t) = fold t := by
  have hself : ∀ s : Text, (∀ d ∈ s, foldChar d = [d]) → fold s = s := by
    intro s hs
    induction s with
    | nil => rfl
    | cons d s ih =>
      rw [List.forall_mem_cons] at hs
      rw [fold_cons, hs.1, ih hs.2, List.singleton_append]
  refine hself _ fun d hd => ?_
  obtain ⟨c, -, hd⟩ := List.mem_flatMap.1 hd
  exact foldChar_of_mem_foldChar hd

end SentenceForge.Text

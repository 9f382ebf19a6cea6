import SentenceForge.Proofs.Text.Plain
import SentenceForge.Text.Numeral

/-!
# Decimal numerals read back

An integer is read from many texts. The plainest are ASCII digits, with a minus sign in
front or without, and of these all are read that are not too long (`readInt?_text`). The
decimal form of an integer is one of them, and so it is read back (`readInt?_ofInt`); the
others have zeros in front or are a negative zero.

A `Decimal` carries what makes it readable, so that reading one is free of conditions.
-/

namespace SentenceForge.Text

/-- **A decimal numeral**: digits, with a minus sign or without. -/
structure Decimal where
  /-- Whether there is a minus sign. -/
  negative : Bool
  /-- The digits. -/
  digits : Text
  /-- There is a digit. -/
  ne_nil : digits ≠ []
  /-- They are digits. -/
  isDigit : ∀ c ∈ digits, c.isDigit = true
  /-- There are no more than may be read. -/
  length_le : digits.length ≤ maxNumeralDigits

namespace Decimal

/-- The numeral as written. -/
def text (d : Decimal) : Text := if d.negative then '-' :: d.digits else d.digits

/-- The integer that it stands for. -/
def value (d : Decimal) : Int :=
  if d.negative then -(Nat.ofDigitChars 10 d.digits 0 : Int) else Nat.ofDigitChars 10 d.digits 0

/-- The numeral of an integer that has not too many digits. -/
def ofInt (n : Int) (h : (ofNat n.natAbs).length ≤ maxNumeralDigits) : Decimal where
  negative := n < 0
  digits := ofNat n.natAbs
  ne_nil := Nat.toDigits_ne_nil
  isDigit _ := Nat.isDigit_of_mem_toDigits (by decide) (by decide)
  length_le := h

variable {n : Int} (h : (ofNat n.natAbs).length ≤ maxNumeralDigits)

/-- **The numeral of an integer is its decimal form.** -/
theorem text_ofInt : (ofInt n h).text = Text.ofInt n := by
  cases n with
  | ofNat n => rfl
  | negSucc n =>
    unfold text ofInt
    rw [if_pos (decide_eq_true (Int.negSucc_lt_zero n))]
    rfl

/-- **The numeral of an integer stands for it.** -/
theorem value_ofInt : (ofInt n h).value = n := by
  have hread : Nat.ofDigitChars 10 (ofNat n.natAbs) 0 = n.natAbs := Nat.ofDigitChars_ten_toDigits
  unfold value ofInt
  simp only [hread, decide_eq_true_eq]
  split <;> omega

end Decimal

/-! ## Digits -/

section Digits

variable {c : Char} {ds : Text}

/-- The digits are ten characters in a row. -/
theorem toNat_of_isDigit (h : c.isDigit = true) : 48 ≤ c.toNat ∧ c.toNat ≤ 57 := by
  unfold Char.isDigit at h
  rw [Bool.and_eq_true, decide_eq_true_eq, decide_eq_true_eq] at h
  exact ⟨h.1, h.2⟩

/-- A digit has the value of its place in the row. -/
theorem digitValue?_of_isDigit (h : c.isDigit = true) :
    digitValue? c = some (c.toNat - '0'.toNat) := by
  obtain ⟨hlow, hhigh⟩ := toNat_of_isDigit h
  unfold digitValue? zeroDigits
  rw [List.findSome?_cons, if_pos ⟨hlow, by omega⟩]
  rfl

/-- A digit is no blank. -/
theorem not_isNumeralBlank_of_isDigit (h : c.isDigit = true) : isNumeralBlank c = false := by
  obtain ⟨hlow, hhigh⟩ := toNat_of_isDigit h
  have hblank : isBlank c = false := by
    unfold isBlank
    simp only [Bool.or_eq_false_iff, Bool.and_eq_false_iff, decide_eq_false_iff_not,
      beq_eq_false_iff_ne]
    omega
  unfold isNumeralBlank
  rw [hblank, Bool.false_and]

/-- Digits have their values. -/
theorem mapM_digitValue? (h : ∀ c ∈ ds, c.isDigit = true) :
    ds.mapM digitValue? = some (ds.map fun c => c.toNat - '0'.toNat) := by
  induction ds with
  | nil => rfl
  | cons c ds ih =>
    rw [List.forall_mem_cons] at h
    rw [List.mapM_cons, digitValue?_of_isDigit h.1, ih h.2]
    rfl

/-- **Digits are read as the number they stand for.** -/
theorem readNat?_of_isDigit (hne : ds ≠ []) (h : ∀ c ∈ ds, c.isDigit = true)
    (hlen : ds.length ≤ maxNumeralDigits) : readNat? ds = some (Nat.ofDigitChars 10 ds 0) := by
  have hgroup : pieces '_' ds = [ds] :=
    pieces_of_not_mem fun hmem => absurd (h '_' hmem) (by decide)
  have hdigits : numeralDigits? ds = some (ds.map fun c => c.toNat - '0'.toNat) := by
    unfold numeralDigits?
    simp only [hgroup]
    rw [if_neg (by simpa using hne), List.flatten_singleton, mapM_digitValue? h]
  unfold readNat?
  rw [hdigits, Option.bind_eq_bind, Option.bind_some, List.length_map, if_pos hlen,
    List.foldl_map, Nat.ofDigitChars_eq_foldl]

end Digits

/-! ## Numerals -/

/-- What has no blank in it has none at its ends. -/
theorem strip_of_not_isNumeralBlank {s : Text} (h : ∀ c ∈ s, isNumeralBlank c = false) :
    ((s.dropWhile isNumeralBlank).reverse.dropWhile isNumeralBlank).reverse = s := by
  have hfree : ∀ t : Text, (∀ c ∈ t, isNumeralBlank c = false) →
      t.dropWhile isNumeralBlank = t := by
    intro t ht
    cases t with
    | nil => rfl
    | cons c t => rw [List.dropWhile_cons_of_neg (by simp [ht c List.mem_cons_self])]
  rw [hfree s h, hfree s.reverse fun c hc => h c (List.mem_reverse.1 hc), List.reverse_reverse]

/-- **A numeral is read as what it stands for.** -/
theorem readInt?_text (d : Decimal) : readInt? d.text = some d.value := by
  have hread := readNat?_of_isDigit d.ne_nil d.isDigit d.length_le
  have hdigits : ∀ c ∈ d.digits, isNumeralBlank c = false := fun c hc =>
    not_isNumeralBlank_of_isDigit (d.isDigit c hc)
  unfold readInt? Decimal.text Decimal.value
  cases d.negative with
  | true =>
    have hblank : ∀ c ∈ '-' :: d.digits, isNumeralBlank c = false :=
      List.forall_mem_cons.2 ⟨by decide, hdigits⟩
    simp only [if_true, strip_of_not_isNumeralBlank hblank, hread]
    rfl
  | false =>
    simp only [Bool.false_eq_true, if_false, strip_of_not_isNumeralBlank hdigits]
    split
    case h_1 ds heq => exact absurd (d.isDigit '-' (by simp [heq])) (by decide)
    case h_2 ds heq => exact absurd (d.isDigit '+' (by simp [heq])) (by decide)
    case h_3 =>
      rw [hread]
      rfl

/-- **What is written of an integer is read as the integer**, if it is not too long. -/
theorem readInt?_ofInt {n : Int} (h : (ofNat n.natAbs).length ≤ maxNumeralDigits) :
    readInt? (ofInt n) = some n := by
  rw [← Decimal.text_ofInt h, readInt?_text, Decimal.value_ofInt]

end SentenceForge.Text

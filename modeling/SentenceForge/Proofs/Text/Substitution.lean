import Mathlib.Data.List.Basic
import SentenceForge.Text.Substitution

/-!
# Laws of literal substitution

A substitution reads a text as occurrences and single characters in a row,
and an induction over that reading (`substitute_induction`) settles what it
leaves alone: a text without an occurrence, the last character if the old
and the new text end alike, the characters that are in neither.

Two texts are substituted one by one if no occurrence **straddles** their
join, which is a matter of how the first ends and the second begins
(`substitute_append`). The same notion says which occurrences a text made
of two has, so a join that is not straddled separates both the finding and
the replacing.

The scan can be forgotten: what a substitution makes of a text is the text with
its first occurrence replaced, then the first behind that one, and so on
(`replaced_iff`).
-/

namespace SentenceForge.Text

/-! ## Straddling a join -/

/-- **An occurrence straddles** the join of two texts if it begins in the
first and ends in the second. -/
def Straddles (old s t : Text) : Prop :=
  ∃ p q, p ≠ [] ∧ q ≠ [] ∧ old = p ++ q ∧ p <:+ s ∧ q <+: t

section Straddles

variable {old s t : Text}

/-- What straddles the join of part of a text straddles that of the text. -/
theorem Straddles.append_left (r : Text) (h : Straddles old s t) : Straddles old (r ++ s) t := by
  obtain ⟨p, q, hp, hq, e, hs, ht⟩ := h
  exact ⟨p, q, hp, hq, e, List.suffix_append_of_suffix hs, ht⟩

/-- **No join is straddled behind a character** that only ends an
occurrence, or is in none. -/
theorem not_straddles_of_getLast? (h : ∀ c ∈ s.getLast?, c ∉ old.dropLast) :
    ¬ Straddles old s t := by
  rintro ⟨p, q, hp, hq, rfl, ⟨r, rfl⟩, -⟩
  have hmem : p.getLast hp ∈ (p ++ q).dropLast := by
    rw [List.dropLast_append_of_ne_nil hq]
    exact List.mem_append_left _ (List.getLast_mem hp)
  refine h (p.getLast hp) ?_ hmem
  rw [List.getLast?_append_of_ne_nil _ hp, List.getLast?_eq_some_getLast hp]
  rfl

/-- **No join is straddled in front of a character** that only begins an
occurrence, or is in none. -/
theorem not_straddles_of_head? (h : ∀ c ∈ t.head?, c ∉ old.tail) : ¬ Straddles old s t := by
  rintro ⟨p, q, hp, hq, rfl, -, ⟨r, rfl⟩⟩
  have hmem : q.head hq ∈ (p ++ q).tail := by
    rw [List.tail_append_of_ne_nil hp]
    exact List.mem_append_right _ (List.head_mem hq)
  refine h (q.head hq) ?_ hmem
  rw [List.head?_append_of_ne_nil _ hq, List.head?_eq_some_head hq]
  rfl

/-- **Where its second character is not, an occurrence straddles the join** only
behind its first one. -/
theorem straddles_cons_iff {c d : Char} {old : Text} (hd : old ≠ [] → d ∉ s) :
    Straddles (c :: d :: old) s t ↔ s.getLast? = some c ∧ d :: old <+: t := by
  constructor
  · rintro ⟨p, q, hp, hq, e, hs, ht⟩
    obtain ⟨c', p, rfl⟩ := List.exists_cons_of_ne_nil hp
    rw [List.cons_append, List.cons.injEq] at e
    obtain ⟨rfl, e⟩ := e
    cases p with
    | nil =>
      obtain ⟨r, rfl⟩ := hs
      exact ⟨List.getLast?_concat, e ▸ ht⟩
    | cons d' p =>
      -- such an occurrence would have its second character in the first text
      rw [List.cons_append, List.cons.injEq] at e
      obtain ⟨rfl, rfl⟩ := e
      exact absurd (hs.subset (by simp)) (hd (List.append_ne_nil_of_right_ne_nil p hq))
  · rintro ⟨hs, ht⟩
    obtain ⟨r, rfl⟩ := List.getLast?_eq_some_iff.1 hs
    exact ⟨[c], d :: old, List.cons_ne_nil _ _, List.cons_ne_nil _ _, rfl, List.suffix_append r [c],
      ht⟩

/-- **What occurs in two texts joined** occurs in one of them, or straddles
the join. -/
theorem infix_append_iff :
    old <:+: s ++ t ↔ old <:+: s ∨ old <:+: t ∨ Straddles old s t := by
  rw [List.infix_append_iff]
  constructor
  · rintro (hs | ht | ⟨p, q, rfl, hp, hq⟩)
    · exact .inl hs
    · exact .inr (.inl ht)
    · by_cases hpn : p = []
      · subst hpn
        exact .inr (.inl hq.isInfix)
      by_cases hqn : q = []
      · subst hqn
        rw [List.append_nil]
        exact .inl hp.isInfix
      exact .inr (.inr ⟨p, q, hpn, hqn, rfl, hp, hq⟩)
  · rintro (hs | ht | ⟨p, q, -, -, e, hp, hq⟩)
    · exact .inl hs
    · exact .inr (.inl ht)
    · exact .inr (.inr ⟨p, q, e, hp, hq⟩)

end Straddles

/-! ## Reading a text for occurrences -/

section Reading

variable {old : Text} (new : Text)

/-- **An occurrence in front is replaced**, and the scan goes on behind
it. -/
theorem substitute_append_left (hne : old ≠ []) (s : Text) :
    substitute old new (old ++ s) = new ++ substitute old new s := by
  obtain ⟨c, r, rfl⟩ := List.exists_cons_of_ne_nil hne
  have hfront : (c :: r).isPrefixOf (c :: (r ++ s)) = true :=
    List.isPrefixOf_iff_prefix.2 (List.prefix_append (c :: r) s)
  rw [List.cons_append, substitute_cons, if_pos hfront]
  simp

/-- A character that begins no occurrence stays. -/
theorem substitute_cons_kept {c : Char} {s : Text} (h : ¬ old <+: c :: s) :
    substitute old new (c :: s) = c :: substitute old new s := by
  have hfront : ¬ old.isPrefixOf (c :: s) = true := mt List.isPrefixOf_iff_prefix.1 h
  rw [substitute_cons, if_neg hfront]

/-- A character that no occurrence begins with stays. -/
theorem substitute_cons_of_ne (hne : old ≠ []) {c : Char} (hc : c ∉ old.head?) (s : Text) :
    substitute old new (c :: s) = c :: substitute old new s := by
  refine substitute_cons_kept new fun h => hc ?_
  obtain ⟨d, r, rfl⟩ := List.exists_cons_of_ne_nil hne
  exact (congrArg some (List.cons_prefix_cons.1 h).1 : some d = some c)

end Reading

/-- **Texts as a substitution reads them**: nothing, an occurrence in front
of a text, or a character that begins none in front of a text. -/
theorem substitute_induction {old : Text} (hne : old ≠ []) {motive : Text → Prop}
    (nil : motive [])
    (found : ∀ s, motive s → motive (old ++ s))
    (kept : ∀ c s, ¬ old <+: c :: s → motive s → motive (c :: s)) (s : Text) :
    motive s := by
  induction hn : s.length using Nat.strongRecOn generalizing s with
  | _ n ih =>
    by_cases h : old <+: s
    · obtain ⟨t, rfl⟩ := h
      have hpos := List.length_pos_iff.2 hne
      refine found t (ih t.length ?_ t rfl)
      rw [← hn, List.length_append]
      omega
    · cases s with
      | nil => exact nil
      | cons c s =>
        refine kept c s h (ih s.length ?_ s rfl)
        rw [← hn, List.length_cons]
        omega

section Laws

variable {old new s t : Text}

/-- **Two texts are substituted one by one** if no occurrence straddles
their join. -/
theorem substitute_append (hne : old ≠ []) (h : ¬ Straddles old s t) :
    substitute old new (s ++ t) = substitute old new s ++ substitute old new t := by
  induction s using substitute_induction hne with
  | nil => rfl
  | found s ih =>
    rw [List.append_assoc, substitute_append_left new hne, substitute_append_left new hne,
      ih fun hs => h (hs.append_left old), List.append_assoc]
  | kept c s hc ih =>
    -- an occurrence that begins with `c` would end in `s`, or straddle the join
    have hc' : ¬ old <+: c :: (s ++ t) := by
      intro hp
      rcases List.prefix_or_prefix_of_prefix hp (List.prefix_append (c :: s) t) with hin | ⟨q, rfl⟩
      · exact hc hin
      · have hq : q ≠ [] := by
          rintro rfl
          rw [List.append_nil] at hc
          exact hc List.prefix_rfl
        exact h ⟨c :: s, q, List.cons_ne_nil c s, hq, rfl, List.suffix_rfl,
          (List.prefix_append_right_inj (c :: s)).1 hp⟩
    rw [List.cons_append, substitute_cons_kept new hc',
      substitute_cons_kept new hc, ih fun hs => h (hs.append_left [c]), List.cons_append]

/-- **Without an occurrence nothing changes.** -/
theorem substitute_of_absent (h : ¬ old <:+: s) : substitute old new s = s := by
  induction s with
  | nil => rfl
  | cons c s ih =>
    rw [List.infix_cons_iff, not_or] at h
    rw [substitute_cons_kept new h.1, ih h.2]

/-- A character of the result is one of the text or of what is written. -/
theorem mem_of_mem_substitute (hne : old ≠ []) {c : Char} (h : c ∈ substitute old new s) :
    c ∈ s ∨ c ∈ new := by
  induction s using substitute_induction hne with
  | nil => exact .inl h
  | found s ih =>
    rw [substitute_append_left new hne, List.mem_append] at h
    rcases h with h | h
    · exact .inr h
    · exact (ih h).imp_left (List.mem_append_right old)
  | kept d s hd ih =>
    rw [substitute_cons_kept new hd, List.mem_cons] at h
    rcases h with rfl | h
    · exact .inl List.mem_cons_self
    · exact (ih h).imp_left (List.mem_cons_of_mem d)

/-- **The last character stays** if what is written ends as what it
replaces. -/
theorem getLast?_substitute (hne : old ≠ []) (hlast : new.getLast? = old.getLast?) (s : Text) :
    (substitute old new s).getLast? = s.getLast? := by
  induction s using substitute_induction hne with
  | nil => rfl
  | found s ih =>
    rw [substitute_append_left new hne, List.getLast?_append, List.getLast?_append, ih, hlast]
  | kept c s hc ih =>
    rw [substitute_cons_kept new hc, List.getLast?_cons, List.getLast?_cons, ih]

/-! ## Lengths -/

/-- What is not longer than what it replaces makes no text longer. -/
theorem length_substitute_le (hne : old ≠ []) (h : new.length ≤ old.length) (s : Text) :
    (substitute old new s).length ≤ s.length := by
  induction s using substitute_induction hne with
  | nil => exact Nat.le_refl _
  | found s ih =>
    rw [substitute_append_left new hne, List.length_append, List.length_append]
    omega
  | kept c s hc ih =>
    rw [substitute_cons_kept new hc, List.length_cons, List.length_cons]
    omega

/-- **What is shorter than what it replaces makes a text shorter** where it
occurs. -/
theorem length_substitute_lt (h : new.length < old.length) (hs : old <:+: s) :
    (substitute old new s).length < s.length := by
  have hne : old ≠ [] := List.length_pos_iff.1 (by omega)
  induction s using substitute_induction hne with
  | nil => exact absurd (List.infix_nil.1 hs) hne
  | found s _ =>
    have hrest := length_substitute_le hne (Nat.le_of_lt h) s
    rw [substitute_append_left new hne, List.length_append, List.length_append]
    omega
  | kept c s hc ih =>
    have hrest := ih ((List.infix_cons_iff.1 hs).resolve_left hc)
    rw [substitute_cons_kept new hc, List.length_cons, List.length_cons]
    omega

/-! ## What is taken away -/

/-- **What takes characters out of what it replaces takes them out of a text.** -/
theorem substitute_sublist (hne : old ≠ []) (h : new.Sublist old) (s : Text) :
    (substitute old new s).Sublist s := by
  induction s using substitute_induction hne with
  | nil => exact List.Sublist.refl []
  | found s ih =>
    rw [substitute_append_left new hne]
    exact h.append ih
  | kept c s hc ih =>
    rw [substitute_cons_kept new hc]
    exact ih.cons_cons c

/-- **What keeps some characters of what it replaces keeps them in a text.** -/
theorem filter_substitute (hne : old ≠ []) {p : Char → Bool} (h : new.filter p = old.filter p)
    (s : Text) : (substitute old new s).filter p = s.filter p := by
  induction s using substitute_induction hne with
  | nil => rfl
  | found s ih =>
    rw [substitute_append_left new hne, List.filter_append, List.filter_append, h, ih]
  | kept c s hc ih =>
    rw [substitute_cons_kept new hc, List.filter_cons, List.filter_cons, ih]

/-! ## Occurrence by occurrence -/

/-- **A text with every occurrence replaced**: the first that there is, and then
those of what stands behind it. -/
inductive Replaced (old new : Text) : Text → Text → Prop where
  /-- There is none. -/
  | absent {s : Text} (none : ¬ old <:+: s) : Replaced old new s s
  /-- There is one, and none begins in front of it. -/
  | found {before behind rest : Text}
      (first : ∀ u v, before ++ old ++ behind = u ++ old ++ v → before.length ≤ u.length)
      (replaced : Replaced old new behind rest) :
      Replaced old new (before ++ old ++ behind) (before ++ new ++ rest)

/-- A character in front that begins no occurrence stays in front. -/
theorem Replaced.cons {c : Char} {r : Text} (hc : ¬ old <+: c :: s) (h : Replaced old new s r) :
    Replaced old new (c :: s) (c :: r) := by
  cases h with
  | absent none => exact .absent fun h => (List.infix_cons_iff.1 h).elim hc none
  | @found before behind rest first replaced =>
    show Replaced old new (c :: before ++ old ++ behind) (c :: before ++ new ++ rest)
    refine .found (fun u v huv => ?_) replaced
    cases u with
    | nil => exact absurd ⟨v, huv.symm⟩ hc
    | cons d u => exact Nat.succ_le_succ (first u v (List.cons.inj huv).2)

/-- What stands in front of the first occurrence stays in front. -/
theorem substitute_append_found (hne : old ≠ []) {before behind : Text}
    (first : ∀ u v, before ++ old ++ behind = u ++ old ++ v → before.length ≤ u.length) :
    substitute old new (before ++ old ++ behind) = before ++ new ++ substitute old new behind := by
  induction before with
  | nil => exact substitute_append_left new hne behind
  | cons c before ih =>
    have hc : ¬ old <+: c :: (before ++ old ++ behind) := by
      rintro ⟨v, hv⟩
      exact Nat.not_succ_le_zero _ (first [] v hv.symm)
    rw [List.cons_append, List.cons_append, substitute_cons_kept new hc, ih fun u v huv => ?_]
    · rfl
    · exact Nat.le_of_succ_le_succ (first (c :: u) v (congrArg (c :: ·) huv))

/-- **A substitution replaces every occurrence**, and there is one way to do so. -/
theorem replaced_iff (hne : old ≠ []) {r : Text} :
    Replaced old new s r ↔ r = substitute old new s := by
  constructor
  · intro h
    induction h with
    | absent none => exact (substitute_of_absent none).symm
    | found first _ ih => rw [substitute_append_found hne first, ih]
  · rintro rfl
    induction s using substitute_induction hne with
    | nil => exact .absent fun h => hne (List.infix_nil.1 h)
    | found s ih =>
      rw [substitute_append_left new hne]
      show Replaced old new ([] ++ old ++ s) ([] ++ new ++ substitute old new s)
      exact .found (fun _ _ _ => Nat.zero_le _) ih
    | kept c s hc ih =>
      rw [substitute_cons_kept new hc]
      exact ih.cons hc

end Laws

end SentenceForge.Text

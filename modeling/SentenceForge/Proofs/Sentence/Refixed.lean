import SentenceForge.Proofs.Sentence.Shape

/-!
# Punctuation that is fixed twice

Fixing the punctuation is not idempotent. The substitutions are made once
each, and the one that drops a comma in front of a full stop comes before the
one that brings a full stop to the comma in front of it. So a comma and a full
stop that are tokens of their own are joined and stay, and a second fixing
drops the comma.

On raw text this is one of three cases in which a second fixing finds
something to do, and all three are seen in the tokens: a comma is in front of
a full stop after the first one if two tokens meet like that, or if a token has
two commas there (`KeepsComma`), and a star is behind one if a token that is
only a star was dropped between them (`KeepsStar`). Fixing twice is fixing once
exactly if none of them is there (`fix_fix_rawText_iff`).
-/

namespace SentenceForge

open Text

namespace Punctuation

/-! ## What a first fixing leaves -/

/-- **Tokens that keep a comma in front of a full stop** when their punctuation
is fixed. -/
inductive KeepsComma (ts : List Text) : Prop where
  /-- A token has two commas there, of which one is dropped. -/
  | doubled (t : Text) (mem : t ∈ ts) (commas : ",,.".toList <:+: t)
  /-- A token ends with a comma, and the next opens with a full stop, or with a
  comma that is dropped in front of one. -/
  | met (t u : Text) (next : [t, u] <:+: ts) (comma : t.getLast? = some ',')
      (stop : u.head? = some '.' ∨ ",.".toList <+: u)

/-- **Tokens that keep a star behind a full stop** when their punctuation is
fixed: between a token that ends with a full stop and one that opens with a star
there is one that is only a star. -/
def KeepsStar (ts : List Text) : Prop :=
  ∃ t u, [t, ['*'], u] <:+: ts ∧ t.getLast? = some '.' ∧ u.head? = some '*'

/-- No token keeps no comma. -/
theorem not_keepsComma_nil : ¬ KeepsComma [] := by
  rintro (⟨t, mem, -⟩ | ⟨t, u, next, -, -⟩)
  · exact List.not_mem_nil mem
  · exact List.cons_ne_nil _ _ (List.infix_nil.1 next)

/-- Two neighbours are the first tokens, or are found behind the first. -/
theorem pair_infix_cons_iff {α : Type} {t u x : α} {xs : List α} :
    [t, u] <:+: x :: xs ↔ (t = x ∧ xs.head? = some u) ∨ [t, u] <:+: xs := by
  rw [List.infix_cons_iff, List.cons_prefix_cons]
  cases xs with
  | nil => simp
  | cons y ys => simp [List.cons_prefix_cons, eq_comm]

/-- **Tokens keep a comma** in the first, where the first meets the next, or
behind it. -/
theorem keepsComma_cons_iff {t : Text} {ts : List Text} :
    KeepsComma (t :: ts) ↔ ",,.".toList <:+: t
      ∨ (t.getLast? = some ',' ∧ ∃ u, ts.head? = some u ∧ (u.head? = some '.' ∨ ",.".toList <+: u))
      ∨ KeepsComma ts := by
  constructor
  · rintro (⟨t', mem, commas⟩ | ⟨t', u, next, comma, stop⟩)
    · rcases List.mem_cons.1 mem with rfl | mem
      · exact .inl commas
      · exact .inr (.inr (.doubled t' mem commas))
    · rcases pair_infix_cons_iff.1 next with ⟨rfl, hu⟩ | next
      · exact .inr (.inl ⟨comma, u, hu, stop⟩)
      · exact .inr (.inr (.met t' u next comma stop))
  · rintro (commas | ⟨comma, u, hu, stop⟩ | ⟨t', mem, commas⟩ | ⟨t', u, next, comma, stop⟩)
    · exact .doubled t List.mem_cons_self commas
    · exact .met t u (pair_infix_cons_iff.2 (.inl ⟨rfl, hu⟩)) comma stop
    · exact .doubled t' (List.mem_cons_of_mem t mem) commas
    · exact .met t' u (pair_infix_cons_iff.2 (.inr next)) comma stop

/-- **Tokens keep a star** behind the first, or where a token that is only a star
follows it, in front of another one. -/
theorem keepsStar_cons_iff {t : Text} {ts : List Text} :
    KeepsStar (t :: ts) ↔
      (t.getLast? = some '.' ∧ ∃ u us, ts = ['*'] :: u :: us ∧ u.head? = some '*')
        ∨ KeepsStar ts := by
  constructor
  · rintro ⟨t', u, next, stop, star⟩
    rcases List.infix_cons_iff.1 next with hfront | next
    · rw [List.cons_prefix_cons] at hfront
      obtain ⟨rfl, us, rfl⟩ := hfront
      exact .inl ⟨stop, u, us, rfl, star⟩
    · exact .inr ⟨t', u, next, stop, star⟩
  · rintro (⟨stop, u, us, rfl, star⟩ | ⟨t', u, next, stop, star⟩)
    · exact ⟨t, u, (List.prefix_append [t, ['*'], u] us).isInfix, stop, star⟩
    · exact ⟨t', u, next.trans (List.suffix_cons t ts).isInfix, stop, star⟩

/-! ## Commas inside a token -/

/-- What is written opens with a full stop if the text does, or if a comma is
dropped there. -/
theorem head?_substitute_comma (s : Text) :
    (substitute [',', '.'] ['.'] s).head? = some '.' ↔ s.head? = some '.' ∨ [',', '.'] <+: s := by
  by_cases hfront : [',', '.'] <+: s
  · obtain ⟨r, rfl⟩ := hfront
    rw [substitute_append_left _ (List.cons_ne_nil _ _)]
    exact iff_of_true rfl (.inr (List.prefix_append _ r))
  · cases s with
    | nil => simp
    | cons c s =>
      rw [substitute_cons_kept _ hfront, or_iff_left hfront]
      rfl

/-- **A comma in front of a full stop is left** where there were two of them. -/
theorem infix_substitute_comma_iff (s : Text) :
    [',', '.'] <:+: substitute [',', '.'] ['.'] s ↔ [',', ',', '.'] <:+: s := by
  induction s using substitute_induction (List.cons_ne_nil ',' ['.']) with
  | nil => simp
  | found s ih =>
    rw [substitute_append_left _ (List.cons_ne_nil _ _)]
    simp [List.infix_cons_iff, List.cons_prefix_cons, ih]
  | kept c s hc ih =>
    rw [substitute_cons_kept _ hc, List.infix_cons_iff, List.infix_cons_iff, ih,
      List.cons_prefix_cons, List.cons_prefix_cons, List.singleton_prefix_iff_head?_eq_some,
      head?_substitute_comma]
    refine or_congr_left (and_congr_right fun hcomma => or_iff_right fun hstop => hc ?_)
    rw [← hcomma, List.cons_prefix_cons, List.singleton_prefix_iff_head?_eq_some]
    exact ⟨rfl, hstop⟩

/-- A star that is dropped is in no occurrence of commas. -/
theorem infix_unstarred_iff (b t : Text) :
    [',', ',', '.'] <:+: unstarred b t ↔ [',', ',', '.'] <:+: t := by
  cases hstar : starred b t with
  | false => rw [unstarred_of_not_starred hstar]
  | true =>
    obtain ⟨s, rfl⟩ := List.head?_eq_some_iff.1 (starred_iff.1 hstar).2
    rw [unstarred_of_starred hstar, List.infix_cons_iff]
    simp [List.cons_prefix_cons]

/-! ## Where tokens meet -/

/-- A starred token has no gap in front of it. -/
theorem not_starred_of_apart {t u : Text} (h : spacing.apart t u = true) : starred t u = false := by
  have h' : (t.getLast? != some ')' && !starred t u
      && closingMarks.all fun mark => u.head? != some mark) = true := h
  rw [Bool.and_eq_true, Bool.and_eq_true, Bool.not_eq_true'] at h'
  exact h'.1.2

/-- Nothing is written of a word only if it is a star behind a full stop. -/
theorem eq_star_of_core_nil {t u : Text} (hu : IsWord u) (h : spacing.core t u = []) :
    u = ['*'] := by
  have hnil : unstarred t u = [] := by
    rw [← List.getLast?_eq_none_iff, ← Spacing.getLast?_core_stopped]
    exact List.getLast?_eq_none_iff.2 h
  cases hstar : starred t u with
  | false => exact absurd (unstarred_of_not_starred hstar ▸ hnil) hu.1
  | true =>
    obtain ⟨s, rfl⟩ := List.head?_eq_some_iff.1 (starred_iff.1 hstar).2
    rw [unstarred_of_starred hstar] at hnil
    rw [hnil]

end Punctuation

namespace Spacing

/-- An occurrence that does not open with a space is found behind a gap, if it is
found at it. -/
theorem infix_gap_append_iff (σ : Spacing) {c : Char} (hc : c ≠ ' ') {old : Text} (t u s : Text) :
    c :: old <:+: σ.gap t u ++ s ↔ c :: old <:+: s := by
  cases hapart : σ.apart t u with
  | false => rw [gap_of_not_apart hapart, List.nil_append]
  | true =>
    rw [gap_of_apart hapart, List.singleton_append, List.infix_cons_iff, List.cons_prefix_cons]
    exact or_iff_right fun h => hc h.1

end Spacing

namespace Punctuation

open Spacing

section Meeting

variable {t : Text} {ts : List Text} (hts : ∀ u ∈ ts, IsWord u)

include hts

/-- **A full stop follows a comma** if the next token opens with one, or with a
comma that is dropped in front of one. -/
theorem head?_behind_comma (hcomma : t.getLast? = some ',') :
    (spacing.gap t (ts.headD []) ++ spacing.after t ts).head? = some '.'
      ↔ ∃ u, ts.head? = some u ∧ (u.head? = some '.' ∨ [',', '.'] <+: u) := by
  cases ts with
  | nil =>
    unfold gap
    split <;> simp [after]
  | cons u us =>
    have hu : IsWord u := hts u List.mem_cons_self
    show (spacing.gap t u ++ spacing.after t (u :: us)).head? = _ ↔ _
    simp only [List.head?_cons, Option.some.injEq, exists_eq_left']
    cases hapart : spacing.apart t u with
    | true =>
      have hclosed := (of_apart hapart).2
      rw [gap_of_apart hapart]
      refine iff_of_false (fun h => absurd (Option.some.inj h) (by decide)) ?_
      rintro (hstop | ⟨r, rfl⟩)
      · exact hclosed '.' (by decide) hstop
      · exact hclosed ',' (by decide) rfl
    | false =>
      have hlast : t.getLast? ≠ some '.' := by
        rw [hcomma]
        decide
      have hstar : starred t u = false := Bool.eq_false_iff.2 fun h => hlast (starred_iff.1 h).1
      have hcore : spacing.core t u = substitute [',', '.'] ['.'] u :=
        congrArg _ (unstarred_of_not_starred hstar)
      have hne : spacing.core t u ≠ [] := fun h => hlast (regular_spacing.getLast?_of_core_nil hu h)
      rw [gap_of_not_apart hapart, List.nil_append, after, List.head?_append_of_ne_nil _ hne, hcore,
        head?_substitute_comma]

/-- Behind an open gap a star follows if the next token opens with one. -/
theorem star_prefix_of_apart (hapart : spacing.apart t (ts.headD []) = true) :
    [' ', '*'] <+: spacing.gap t (ts.headD []) ++ spacing.after t ts
      ↔ (ts.headD []).head? = some '*' := by
  rw [gap_of_apart hapart, List.singleton_append, List.cons_prefix_cons,
    List.singleton_prefix_iff_head?_eq_some, regular_spacing.head?_after hts hapart]
  exact and_iff_right rfl

/-- Behind a closed gap it follows only if the next token is nothing but a star
that is dropped. -/
theorem star_prefix_of_not_apart (hapart : spacing.apart t (ts.headD []) = false) :
    [' ', '*'] <+: spacing.gap t (ts.headD []) ++ spacing.after t ts
      ↔ ∃ us, ts = ['*'] :: us ∧ t.getLast? = some '.'
        ∧ [' ', '*'] <+: spacing.gap ['*'] (us.headD []) ++ spacing.after ['*'] us := by
  rw [gap_of_not_apart hapart, List.nil_append]
  constructor
  · intro h
    cases ts with
    | nil => exact absurd (List.prefix_nil.1 h) (List.cons_ne_nil _ _)
    | cons u us =>
      have hu : IsWord u := hts u List.mem_cons_self
      -- a space opens the rest, so nothing is written of the token behind the gap
      have hnil : spacing.core t u = [] := by
        obtain ⟨r, hr⟩ := h
        by_contra hne
        obtain ⟨c, s, hcore⟩ := List.exists_cons_of_ne_nil hne
        rw [after, hcore] at hr
        have hspace : ' ' ∉ spacing.core t u := regular_spacing.space_not_mem hu
        rw [hcore] at hspace
        exact hspace (List.mem_cons.2 (.inl (List.cons.inj hr).1))
      obtain rfl := eq_star_of_core_nil hu hnil
      rw [after, hnil, List.nil_append] at h
      exact ⟨us, rfl, regular_spacing.getLast?_of_core_nil hu hnil, h⟩
  · rintro ⟨us, rfl, hstop, h⟩
    have hcore : spacing.core t ['*'] = [] :=
      congrArg (substitute [',', '.'] ['.']) (unstarred_of_starred (starred_iff.2 ⟨hstop, rfl⟩))
    rw [after, hcore, List.nil_append]
    exact h

/-- **A star follows a full stop** and a space if the next token is only a star
and the one behind it opens with one. -/
theorem star_prefix_behind_stop_iff (hstop : t.getLast? = some '.') :
    [' ', '*'] <+: spacing.gap t (ts.headD []) ++ spacing.after t ts
      ↔ ∃ u us, ts = ['*'] :: u :: us ∧ u.head? = some '*' := by
  have hclosed : (ts.headD []).head? = some '*' → spacing.apart t (ts.headD []) = false := by
    intro hstar
    refine Bool.eq_false_iff.2 fun hapart => ?_
    have hstarred := not_starred_of_apart hapart
    rw [starred_iff.2 ⟨hstop, hstar⟩] at hstarred
    cases hstarred
  constructor
  · intro h
    cases hapart : spacing.apart t (ts.headD []) with
    | true =>
      have hfalse := hclosed ((star_prefix_of_apart hts hapart).1 h)
      rw [hapart] at hfalse
      cases hfalse
    | false =>
      obtain ⟨us, rfl, -, h⟩ := (star_prefix_of_not_apart hts hapart).1 h
      have hus : ∀ v ∈ us, IsWord v := fun v hv => hts v (List.mem_cons_of_mem _ hv)
      cases hnext : spacing.apart ['*'] (us.headD []) with
      | true =>
        have hstar := (star_prefix_of_apart hus hnext).1 h
        cases us with
        | nil => cases hstar
        | cons u us => exact ⟨u, us, rfl, hstar⟩
      | false =>
        obtain ⟨-, -, hlast, -⟩ := (star_prefix_of_not_apart hus hnext).1 h
        exact absurd hlast (by decide)
  · rintro ⟨u, us, rfl, hstar⟩
    have hus : ∀ v ∈ u :: us, IsWord v := fun v hv => hts v (List.mem_cons_of_mem _ hv)
    obtain ⟨s, rfl⟩ := List.head?_eq_some_iff.1 hstar
    have hnext : spacing.apart ['*'] ('*' :: s) = true := rfl
    exact (star_prefix_of_not_apart hts (hclosed rfl)).2
      ⟨_, rfl, hstop, (star_prefix_of_apart hus hnext).2 rfl⟩

end Meeting

/-! ## The patterns that are left -/

/-- **A comma is in front of a full stop** in spaced tokens exactly if they keep
one there. -/
theorem infix_comma_after_iff {ts : List Text} (hts : ∀ t ∈ ts, IsWord t) (b : Text) :
    [',', '.'] <:+: spacing.after b ts ↔ KeepsComma ts := by
  induction ts generalizing b with
  | nil => exact iff_of_false (fun h => List.cons_ne_nil _ _ (List.infix_nil.1 h)) not_keepsComma_nil
  | cons t ts ih =>
    rw [List.forall_mem_cons] at hts
    have hinside : [',', '.'] <:+: spacing.core b t ↔ ",,.".toList <:+: t :=
      (infix_substitute_comma_iff _).trans (infix_unstarred_iff b t)
    have hlast : (spacing.core b t).getLast? = some ',' ↔ t.getLast? = some ',' :=
      regular_spacing.getLast?_core hts.1 (by decide)
    rw [after, infix_append_iff, infix_gap_append_iff _ (by decide), ih hts.2 t, hinside,
      straddles_cons_iff fun h => absurd rfl h, List.singleton_prefix_iff_head?_eq_some, hlast,
      keepsComma_cons_iff, or_comm (a := KeepsComma ts)]
    exact or_congr_right (or_congr_left (and_congr_right (head?_behind_comma hts.2)))

/-- **A star is behind a full stop** in spaced tokens exactly if they keep one
there. -/
theorem infix_star_after_iff {ts : List Text} (hts : ∀ t ∈ ts, IsWord t) (b : Text) :
    ['.', ' ', '*'] <:+: spacing.after b ts ↔ KeepsStar ts := by
  induction ts generalizing b with
  | nil =>
    refine iff_of_false (fun h => List.cons_ne_nil _ _ (List.infix_nil.1 h)) ?_
    rintro ⟨t, u, next, -⟩
    exact List.cons_ne_nil _ _ (List.infix_nil.1 next)
  | cons t ts ih =>
    rw [List.forall_mem_cons] at hts
    have hspace : ' ' ∉ spacing.core b t := regular_spacing.space_not_mem hts.1
    have hinside : ¬ ['.', ' ', '*'] <:+: spacing.core b t := fun h => hspace (h.subset (by simp))
    have hlast : (spacing.core b t).getLast? = some '.' ↔ t.getLast? = some '.' :=
      regular_spacing.getLast?_core hts.1 (by decide)
    rw [after, infix_append_iff, infix_gap_append_iff _ (by decide), ih hts.2 t,
      or_iff_right hinside, straddles_cons_iff fun _ => hspace, hlast, keepsStar_cons_iff, or_comm]
    exact or_congr_left (and_congr_right (star_prefix_behind_stop_iff hts.2))

/-! ## Fixing twice -/

/-- **On raw text, fixing the punctuation twice is fixing it once** exactly if the
tokens keep neither a comma in front of a full stop nor a star behind one. -/
theorem fix_fix_rawText_iff {ts : List Text} (h : ∀ t ∈ ts, IsWord t) :
    fix (fix (rawText ts)) = fix (rawText ts) ↔ ¬ KeepsComma ts ∧ ¬ KeepsStar ts := by
  have hcomma : ",.".toList <:+: fix (rawText ts) ↔ KeepsComma ts := by
    rw [fix_rawText ts h]
    exact infix_comma_after_iff h []
  have hstar : ". *".toList <:+: fix (rawText ts) ↔ KeepsStar ts := by
    rw [fix_rawText ts h]
    exact infix_star_after_iff h []
  have hchanged := fix_ne_self_iff_of_closed (fun _ => not_infix_before_fix h)
    (not_infix_behind_fix h)
  rw [← not_or, ← hcomma, ← hstar, ← hchanged, not_ne_iff]

end Punctuation

/-- **Fixing the punctuation of an expansion twice** is fixing it once exactly if
its tokens keep neither a comma in front of a full stop nor a star behind one.
The tokens of an expansion are its words. -/
theorem Grammar.fix_fix_iff_of_expand {entries : List Entry} {g : Grammar}
    (built : (ofEntries entries).result = .ok g) {σ : Type} {source : Source σ}
    {settings : Settings} {name raw : Text} {s : σ}
    (h : (g.expand source settings name s).result = .ok raw) :
    Punctuation.fix (Punctuation.fix raw) = Punctuation.fix raw
      ↔ ¬ Punctuation.KeepsComma (words raw) ∧ ¬ Punctuation.KeepsStar (words raw) := by
  obtain ⟨ts, hts, rfl⟩ := exists_words_of_expand built h
  rw [(spreads_rawText hts).words_eq]
  exact Punctuation.fix_fix_rawText_iff hts

/-- A comma and a full stop with a name between them that expands to nothing: the
first fixing joins them, and the second drops the comma. -/
theorem Grammar.fix_fix_iff_of_expand_of_comma_stop :
    let entries := [["<start>".toList, "well , <more> .".toList], ["<more>".toList, []]]
    let raw := "well , . ".toList
    ∃ g, (ofEntries entries).result = .ok g
      ∧ (g.expand Random.Chooser.source {} startName .first).result = .ok raw
      ∧ (Punctuation.fix (Punctuation.fix raw) = Punctuation.fix raw
        ↔ ¬ Punctuation.KeepsComma (words raw) ∧ ¬ Punctuation.KeepsStar (words raw))
      ∧ Punctuation.KeepsComma (words raw)
      ∧ Punctuation.fix raw = "well,. ".toList
      ∧ Punctuation.fix (Punctuation.fix raw) = "well. ".toList := by
  intro entries raw
  let g := ofDefinitions [⟨"<start>".toList, ["well , <more> .".toList]⟩, ⟨"<more>".toList, [[]]⟩]
  have built : (ofEntries entries).result = .ok g := by rfl
  have expanded : (g.expand Random.Chooser.source {} startName .first).result = .ok raw := by rfl
  have keeps : Punctuation.KeepsComma (words raw) :=
    .met [','] ['.'] ⟨["well".toList], [], by decide⟩ rfl (.inl rfl)
  exact ⟨g, built, expanded, fix_fix_iff_of_expand built expanded, keeps, by decide, by decide⟩

end SentenceForge

import SentenceForge.Expansion
import SentenceForge.Proofs.Text.Substitution
import SentenceForge.Proofs.Text.Words
import SentenceForge.Sentence.Punctuation
import SentenceForge.Sentence.Spacing

/-!
# Fixing punctuation is a spacing

On raw text every substitution of punctuation is a step from one spacing of
the tokens to another: it closes some gaps, or changes what is written of a
token, and each decision is made by looking at one neighbour. The seven in
a row lead from the spacing that writes every token and a space to the
spacing of punctuation (`fix_rawText`).

That a substitution stays inside a token or at a gap is what has to be
shown, since an earlier one may have brought two tokens together. What is
needed for it is little (`Spacing.Regular`): what is written of a token has
no space in it, ends as the token does, opens as the token does where a
space is in front of it, and is nothing only behind a full stop.
-/

namespace SentenceForge

open Text

namespace Text

/-! ## Taking a space at a mark -/

section Space

variable {mark : Char} {s t : Text}

/-- A text without a space has no occurrence of what has one. -/
theorem substitute_of_space_not_mem {old new : Text} (hold : ' ' ∈ old) (hs : ' ' ∉ s) :
    substitute old new s = s :=
  substitute_of_absent fun h => hs (h.subset hold)

/-- A text without a space stays where a space in front of a mark is
taken. -/
theorem substitute_front_of_space_not_mem (hs : ' ' ∉ s) (t : Text) :
    substitute [' ', mark] [mark] (s ++ t) = s ++ substitute [' ', mark] [mark] t := by
  have hjoin : ¬ Straddles [' ', mark] s t := not_straddles_of_getLast? fun c hc hmem =>
    hs (List.mem_singleton.1 hmem ▸ List.mem_of_getLast? hc)
  rw [substitute_append (List.cons_ne_nil _ _) hjoin, substitute_of_space_not_mem (by simp) hs]

/-- **A space goes if the mark is next**, and stays otherwise. -/
theorem substitute_space_front (hmark : mark ≠ ' ') (t : Text) :
    substitute [' ', mark] [mark] (' ' :: t)
      = (if t.head? = some mark then [] else [' ']) ++ substitute [' ', mark] [mark] t := by
  have hne : [' ', mark] ≠ [] := List.cons_ne_nil _ _
  by_cases h : t.head? = some mark
  · obtain ⟨r, rfl⟩ := List.head?_eq_some_iff.1 h
    have hfirst : mark ∉ [' ', mark].head? := fun e => hmark (Option.some.inj e).symm
    rw [if_pos h, List.nil_append, substitute_cons_of_ne [mark] hne hfirst]
    exact substitute_append_left [mark] hne r
  · rw [if_neg h]
    refine substitute_cons_kept [mark] fun hp => h ?_
    obtain ⟨r, rfl⟩ := (List.cons_prefix_cons.1 hp).2
    rfl

/-- A text without a space stays where a space behind a mark is taken, and
nothing changes at a join that is not one of the mark and a space. -/
theorem substitute_behind_closed (hs : ' ' ∉ s)
    (h : s.getLast? = some mark → t.head? ≠ some ' ') :
    substitute [mark, ' '] [mark] (s ++ t) = s ++ substitute [mark, ' '] [mark] t := by
  have hjoin : ¬ Straddles [mark, ' '] s t := by
    by_cases hm : s.getLast? = some mark
    · exact not_straddles_of_head? fun c hc hmem => h hm (List.mem_singleton.1 hmem ▸ hc)
    · exact not_straddles_of_getLast? fun c hc hmem => hm (List.mem_singleton.1 hmem ▸ hc)
  rw [substitute_append (List.cons_ne_nil _ _) hjoin, substitute_of_space_not_mem (by simp) hs]

/-- **A space goes if the mark is before it**, and stays otherwise. -/
theorem substitute_behind_open (hmark : mark ≠ ' ') (hs : ' ' ∉ s) (t : Text) :
    substitute [mark, ' '] [mark] (s ++ ' ' :: t)
      = s ++ ((if s.getLast? = some mark then [] else [' '])
        ++ substitute [mark, ' '] [mark] t) := by
  have hne : [mark, ' '] ≠ [] := List.cons_ne_nil _ _
  by_cases hm : s.getLast? = some mark
  · obtain ⟨r, rfl⟩ := List.getLast?_eq_some_iff.1 hm
    have hr : ' ' ∉ r := fun h => hs (List.mem_append_left _ h)
    have hsplit : r ++ [mark] ++ ' ' :: t = r ++ ([mark, ' '] ++ t) := by simp
    have hhead : ([mark, ' '] ++ t).head? ≠ some ' ' := fun e => hmark (Option.some.inj e)
    rw [if_pos hm, hsplit, substitute_behind_closed hr fun _ => hhead,
      substitute_append_left [mark] hne]
    simp
  · have hfirst : ' ' ∉ [mark, ' '].head? := fun e => hmark (Option.some.inj e)
    rw [if_neg hm, substitute_behind_closed hs fun h => absurd h hm,
      substitute_cons_of_ne [mark] hne hfirst]
    rfl

end Space

/-! ## Taking a star behind a full stop -/

section Star

variable {s t : Text}

/-- A text without a space stays where stars are taken, and nothing changes
at a join that no star or space stands behind. -/
theorem substitute_star_closed (hs : ' ' ∉ s) (h : ∀ c ∈ t.head?, c ∉ [' ', '*']) :
    substitute ['.', ' ', '*'] ['.'] (s ++ t) = s ++ substitute ['.', ' ', '*'] ['.'] t := by
  have hjoin : ¬ Straddles ['.', ' ', '*'] s t := not_straddles_of_head? h
  rw [substitute_append (List.cons_ne_nil _ _) hjoin, substitute_of_space_not_mem (by simp) hs]

/-- **A star goes behind a full stop**, with the space between them. -/
theorem substitute_star_taken (hs : ' ' ∉ s) (h : s.getLast? = some '.') (t : Text) :
    substitute ['.', ' ', '*'] ['.'] (s ++ ' ' :: '*' :: t)
      = s ++ substitute ['.', ' ', '*'] ['.'] t := by
  obtain ⟨r, rfl⟩ := List.getLast?_eq_some_iff.1 h
  have hr : ' ' ∉ r := fun hm => hs (List.mem_append_left _ hm)
  have hsplit : r ++ ['.'] ++ ' ' :: '*' :: t = r ++ (['.', ' ', '*'] ++ t) := by simp
  have hhead : ∀ c ∈ (['.', ' ', '*'] ++ t).head?, c ∉ [' ', '*'] := by simp
  rw [hsplit, substitute_star_closed hr hhead,
    substitute_append_left ['.'] (List.cons_ne_nil _ _), List.append_assoc]

/-- **A space stays** unless it is between a full stop and a star. -/
theorem substitute_star_open (hs : ' ' ∉ s)
    (h : s.getLast? = some '.' → t.head? ≠ some '*') :
    substitute ['.', ' ', '*'] ['.'] (s ++ ' ' :: t)
      = s ++ ' ' :: substitute ['.', ' ', '*'] ['.'] t := by
  have hne : ['.', ' ', '*'] ≠ [] := List.cons_ne_nil _ _
  have hspace : ∀ u, substitute ['.', ' ', '*'] ['.'] (' ' :: u)
      = ' ' :: substitute ['.', ' ', '*'] ['.'] u := substitute_cons_of_ne ['.'] hne (by simp)
  by_cases hm : s.getLast? = some '.'
  · obtain ⟨r, rfl⟩ := List.getLast?_eq_some_iff.1 hm
    have hr : ' ' ∉ r := fun hmem => hs (List.mem_append_left _ hmem)
    have hsplit : r ++ ['.'] ++ ' ' :: t = r ++ '.' :: ' ' :: t := by simp
    have hhead : ∀ c ∈ ('.' :: ' ' :: t).head?, c ∉ [' ', '*'] := by simp
    have hkept : ¬ ['.', ' ', '*'] <+: '.' :: ' ' :: t := by
      intro hp
      obtain ⟨u, rfl⟩ := (List.cons_prefix_cons.1 (List.cons_prefix_cons.1 hp).2).2
      exact h hm rfl
    rw [hsplit, substitute_star_closed hr hhead, substitute_cons_kept ['.'] hkept, hspace]
    simp
  · have hjoin : ¬ Straddles ['.', ' ', '*'] s (' ' :: t) := by
      refine not_straddles_of_getLast? fun c hc hmem => ?_
      rcases List.mem_cons.1 hmem with rfl | hmem
      · exact hm hc
      · exact hs (List.mem_singleton.1 hmem ▸ List.mem_of_getLast? hc)
    rw [substitute_append hne hjoin, substitute_of_space_not_mem (by simp) hs, hspace]

end Star

end Text

namespace Spacing

variable {σ τ : Spacing}

/-! ## Substituting token by token -/

/-- A gap that is open. -/
theorem gap_of_apart {t u : Text} (h : σ.apart t u = true) : σ.gap t u = [' '] := if_pos h

/-- A gap that is closed. -/
theorem gap_of_not_apart {t u : Text} (h : σ.apart t u = false) : σ.gap t u = [] :=
  if_neg (by simp [h])

/-- **A substitution that leads from one spacing to another at every token
leads from the one to the other**, whatever the tokens. -/
theorem substitute_after {old new : Text}
    (h : ∀ b t ts, IsWord t → (∀ u ∈ ts, IsWord u) →
      substitute old new (σ.core b t ++ (σ.gap t (ts.headD []) ++ σ.after t ts))
        = τ.core b t ++ (τ.gap t (ts.headD []) ++ substitute old new (σ.after t ts)))
    {ts : List Text} (hts : ∀ t ∈ ts, IsWord t) (b : Text) :
    substitute old new (σ.after b ts) = τ.after b ts := by
  induction ts generalizing b with
  | nil => rfl
  | cons t ts ih =>
    rw [List.forall_mem_cons] at hts
    rw [after, h b t ts hts.1 hts.2, ih hts.2 t, after]

/-! ## Regular spacings -/

/-- **What every step can rely on**: of a word nothing is written that a
substitution at a gap could mistake for a gap or for the edge of another
token. -/
structure Regular (σ : Spacing) : Prop where
  /-- What is written of a word has no blank in it. -/
  not_isBlank_core : ∀ {b t}, IsWord t → ∀ c ∈ σ.core b t, isBlank c = false
  /-- It opens as the word does where a space is in front of it. -/
  head?_core : ∀ {t u}, IsWord u → σ.apart t u = true → (σ.core t u).head? = u.head?
  /-- It ends as the word does, a word that is only a star apart. -/
  getLast?_core : ∀ {b t}, IsWord t → ∀ {c}, c ≠ '*' →
    ((σ.core b t).getLast? = some c ↔ t.getLast? = some c)
  /-- It is nothing only behind a full stop. -/
  getLast?_of_core_nil : ∀ {t u}, IsWord u → σ.core t u = [] → t.getLast? = some '.'

/-- Where nothing is blank there is no space. -/
theorem space_not_mem_of_not_isBlank {s : Text} (h : ∀ c ∈ s, isBlank c = false) : ' ' ∉ s :=
  fun hm => Bool.false_ne_true ((h ' ' hm).symm.trans isBlank_space)

theorem Regular.space_not_mem (hσ : σ.Regular) {b t : Text} (ht : IsWord t) : ' ' ∉ σ.core b t :=
  space_not_mem_of_not_isBlank (hσ.not_isBlank_core ht)

section Regular

variable (hσ : σ.Regular) {t : Text} {ts : List Text}

include hσ

/-- **Behind a gap the next token opens**, and nothing if there is none. -/
theorem Regular.head?_after (hts : ∀ u ∈ ts, IsWord u) (h : σ.apart t (ts.headD []) = true) :
    (σ.after t ts).head? = (ts.headD []).head? := by
  cases ts with
  | nil => rfl
  | cons u us =>
    have hu : IsWord u := hts u List.mem_cons_self
    have hhead := hσ.head?_core hu h
    obtain ⟨c, s, rfl, -⟩ := hu.exists_cons
    show (σ.core t (c :: s) ++ _).head? = some c
    rw [List.head?_append, hhead]
    rfl

/-- Where a gap is closed a space follows only behind a full stop. -/
theorem Regular.getLast?_of_head?_after (hts : ∀ u ∈ ts, IsWord u)
    (h : (σ.after t ts).head? = some ' ') : t.getLast? = some '.' := by
  cases ts with
  | nil => cases h
  | cons u us =>
    have hu : IsWord u := hts u List.mem_cons_self
    refine hσ.getLast?_of_core_nil hu ?_
    by_contra hne
    obtain ⟨c, s, hcs⟩ := List.exists_cons_of_ne_nil hne
    have hmem : ' ' ∈ σ.core t u := by
      rw [after, hcs] at h
      rw [hcs]
      exact List.mem_cons.2 (.inl (Option.some.inj h).symm)
    exact hσ.space_not_mem hu hmem

end Regular

/-! ## Closing gaps -/

/-- The spacing with the gaps closed in front of a mark. -/
def closeBefore (σ : Spacing) (mark : Char) : Spacing :=
  { σ with apart := fun t u => σ.apart t u && u.head? != some mark }

/-- The spacing with the gaps closed behind a mark. -/
def closeBehind (σ : Spacing) (mark : Char) : Spacing :=
  { σ with apart := fun t u => σ.apart t u && t.getLast? != some mark }

theorem gap_closeBefore (mark : Char) (t u : Text) :
    (σ.closeBefore mark).gap t u = if u.head? = some mark then [] else σ.gap t u := by
  show (if (σ.apart t u && u.head? != some mark) = true then [' '] else []) = _
  by_cases h : u.head? = some mark
  · rw [if_pos h, h, bne_self_eq_false, Bool.and_false]
    rfl
  · rw [if_neg h, bne_iff_ne.2 h, Bool.and_true, gap]

theorem gap_closeBehind (mark : Char) (t u : Text) :
    (σ.closeBehind mark).gap t u = if t.getLast? = some mark then [] else σ.gap t u := by
  show (if (σ.apart t u && t.getLast? != some mark) = true then [' '] else []) = _
  by_cases h : t.getLast? = some mark
  · rw [if_pos h, h, bne_self_eq_false, Bool.and_false]
    rfl
  · rw [if_neg h, bne_iff_ne.2 h, Bool.and_true, gap]

/-- **A spacing with fewer gaps is as regular.** -/
theorem Regular.of_core_eq (hσ : σ.Regular) (hcore : τ.core = σ.core)
    (hapart : ∀ t u, τ.apart t u = true → σ.apart t u = true) : τ.Regular where
  not_isBlank_core := by
    rw [hcore]
    exact hσ.not_isBlank_core
  head?_core hu h := by
    rw [hcore]
    exact hσ.head?_core hu (hapart _ _ h)
  getLast?_core := by
    rw [hcore]
    exact hσ.getLast?_core
  getLast?_of_core_nil := by
    rw [hcore]
    exact hσ.getLast?_of_core_nil

theorem Regular.closeBefore (hσ : σ.Regular) (mark : Char) : (σ.closeBefore mark).Regular :=
  hσ.of_core_eq rfl fun _ _ h => (Bool.and_eq_true_iff.1 h).1

theorem Regular.closeBehind (hσ : σ.Regular) (mark : Char) : (σ.closeBehind mark).Regular :=
  hσ.of_core_eq rfl fun _ _ h => (Bool.and_eq_true_iff.1 h).1

/-- **Taking the space in front of a mark** closes the gaps in front of
it. -/
theorem Regular.substitute_closeBefore (hσ : σ.Regular) {mark : Char} (hmark : mark ≠ ' ')
    {ts : List Text} (hts : ∀ t ∈ ts, IsWord t) (b : Text) :
    substitute [' ', mark] [mark] (σ.after b ts) = (σ.closeBefore mark).after b ts := by
  refine substitute_after (fun b t ts ht hts => ?_) hts b
  rw [substitute_front_of_space_not_mem (hσ.space_not_mem ht), gap_closeBefore]
  refine congrArg (σ.core b t ++ ·) ?_
  cases hapart : σ.apart t (ts.headD []) with
  | false =>
    rw [gap_of_not_apart hapart, ite_self]
    rfl
  | true =>
    rw [gap_of_apart hapart, ← hσ.head?_after hts hapart]
    exact substitute_space_front hmark (σ.after t ts)

/-- **Taking the space behind a mark** closes the gaps behind it. -/
theorem Regular.substitute_closeBehind (hσ : σ.Regular) {mark : Char} (hmark : mark ≠ ' ')
    (hstar : mark ≠ '*') (hstop : mark ≠ '.') {ts : List Text} (hts : ∀ t ∈ ts, IsWord t)
    (b : Text) :
    substitute [mark, ' '] [mark] (σ.after b ts) = (σ.closeBehind mark).after b ts := by
  refine substitute_after (fun b t ts ht hts => ?_) hts b
  have hspace : ' ' ∉ σ.core b t := hσ.space_not_mem ht
  have hlast : (σ.core b t).getLast? = some mark ↔ t.getLast? = some mark :=
    hσ.getLast?_core ht hstar
  rw [gap_closeBehind]
  cases hapart : σ.apart t (ts.headD []) with
  | false =>
    -- a space behind a closed gap would mean that `t` ends with a full stop
    have hjoin : (σ.core b t).getLast? = some mark → (σ.after t ts).head? ≠ some ' ' := by
      intro hm hs
      have hstop' := hσ.getLast?_of_head?_after hts hs
      rw [hlast.1 hm] at hstop'
      exact hstop (Option.some.inj hstop')
    rw [gap_of_not_apart hapart, ite_self]
    exact substitute_behind_closed hspace hjoin
  | true =>
    simp only [gap_of_apart hapart, ← hlast]
    exact substitute_behind_open hmark hspace (σ.after t ts)

/-! ## From raw text to stars and full stops -/

/-- The spacing of raw text: every token and a space. -/
def raw : Spacing := ⟨fun _ t => t, fun _ _ => true⟩

/-- Raw text with the commas closed up. -/
def listed : Spacing := raw.closeBefore ','

/-- Then the stars dropped, with the gaps in front of them closed. -/
def joined : Spacing where
  core := Punctuation.unstarred
  apart t u := listed.apart t u && !Punctuation.starred t u

/-- Then the commas dropped in front of a full stop. -/
def stopped : Spacing where
  core b t := substitute [',', '.'] ['.'] (Punctuation.unstarred b t)
  apart := joined.apart

end Spacing

namespace Punctuation

section Starred

variable {b t : Text}

/-- A starred token follows a full stop and opens with its star. -/
theorem starred_iff : starred b t = true ↔ b.getLast? = some '.' ∧ t.head? = some '*' := by
  rw [starred, Bool.and_eq_true, beq_iff_eq, beq_iff_eq]

theorem unstarred_of_starred {s : Text} (h : starred b ('*' :: s) = true) :
    unstarred b ('*' :: s) = s := if_pos h

theorem unstarred_of_not_starred (h : starred b t = false) : unstarred b t = t :=
  if_neg (by simp [h])

/-- A token without its star is part of the token. -/
theorem unstarred_suffix (b t : Text) : unstarred b t <:+ t := by
  unfold unstarred
  split
  · exact List.tail_suffix t
  · exact List.suffix_rfl

/-- **A token without its star ends as the token does**, a star alone
apart. -/
theorem getLast?_unstarred {c : Char} (hc : c ≠ '*') :
    (unstarred b t).getLast? = some c ↔ t.getLast? = some c := by
  cases hs : starred b t with
  | false => rw [unstarred_of_not_starred hs]
  | true =>
    obtain ⟨s, rfl⟩ := List.head?_eq_some_iff.1 (starred_iff.1 hs).2
    rw [unstarred_of_starred hs]
    cases s with
    | nil => simp [Ne.symm hc]
    | cons d s => rw [List.getLast?_cons_cons]

/-- A token without its star is nothing only if it is one behind a full
stop. -/
theorem getLast?_of_unstarred_nil (ht : IsWord t) (h : unstarred b t = []) :
    b.getLast? = some '.' := by
  cases hs : starred b t with
  | false => exact absurd (unstarred_of_not_starred hs ▸ h) ht.1
  | true => exact (starred_iff.1 hs).1

end Starred

end Punctuation

namespace Spacing

open Punctuation

/-- Raw text is the raw spacing of its tokens. -/
theorem rawText_eq_after (b : Text) (ts : List Text) : rawText ts = raw.after b ts := by
  induction ts generalizing b with
  | nil => rfl
  | cons t ts ih =>
    show t ++ [' '] ++ rawText ts = t ++ ([' '] ++ raw.after t ts)
    rw [← ih t, List.append_assoc]

/-- The raw spacing is regular. -/
theorem regular_raw : raw.Regular where
  not_isBlank_core ht := ht.2
  head?_core _ _ := rfl
  getLast?_core _ _ _ := Iff.rfl
  getLast?_of_core_nil hu h := absurd h hu.1

/-- A gap is closed in front of a comma only, as long as only commas were
closed up. -/
theorem head?_of_not_listed {t u : Text} (h : listed.apart t u = false) :
    u.head? = some ',' := by
  have h' : (u.head? != some ',') = false := h
  rwa [bne_eq_false_iff_eq] at h'

/-- A gap that was open is open still, unless the next token is starred. -/
theorem gap_joined {t u : Text} :
    joined.gap t u = if starred t u = true then [] else listed.gap t u := by
  show (if (listed.apart t u && !starred t u) = true then [' '] else []) = _
  cases starred t u with
  | true => rw [Bool.not_true, Bool.and_false]; rfl
  | false => rw [Bool.not_false, Bool.and_true]; rfl

/-- **Dropping the stars joins their tokens to the full stop** before them.
What is written of the token in front may lack a star of its own. -/
theorem substitute_joined {s t : Text} (hs : ' ' ∉ s)
    (hlast : s.getLast? = some '.' ↔ t.getLast? = some '.') {ts : List Text}
    (hts : ∀ u ∈ ts, IsWord u) :
    substitute ['.', ' ', '*'] ['.'] (s ++ (listed.gap t (ts.headD []) ++ listed.after t ts))
      = s ++ (joined.gap t (ts.headD []) ++ joined.after t ts) := by
  -- the scan goes on behind a star that it has taken, and `s` is what is left of the token there
  induction ts generalizing s t with
  | nil =>
    have hgap : joined.gap t [] = [' '] := by
      rw [gap_joined, if_neg fun h => absurd (starred_iff.1 h).2 (by simp)]
      rfl
    show substitute _ _ (s ++ ' ' :: []) = s ++ (joined.gap t [] ++ [])
    rw [hgap, substitute_star_open hs fun _ => by simp]
    rfl
  | cons u us ih =>
    rw [List.forall_mem_cons] at hts
    obtain ⟨hu, hus⟩ := hts
    have hspace : ' ' ∉ u := space_not_mem_of_not_isBlank hu.2
    show substitute _ _ (s ++ (listed.gap t u ++ (u ++ _)))
      = s ++ (joined.gap t u ++ (unstarred t u ++ _))
    rw [gap_joined]
    cases hstar : starred t u with
    | true =>
      obtain ⟨hstop, hhead⟩ := starred_iff.1 hstar
      obtain ⟨r, rfl⟩ := List.head?_eq_some_iff.1 hhead
      have hlast' : r.getLast? = some '.' ↔ ('*' :: r).getLast? = some '.' := by
        have hsame := getLast?_unstarred (b := t) (t := '*' :: r) (c := '.') (by decide)
        rwa [unstarred_of_starred hstar] at hsame
      have hr : ' ' ∉ r := fun h => hspace (List.mem_cons_of_mem _ h)
      rw [unstarred_of_starred hstar, if_pos rfl, List.nil_append, ← ih hr hlast' hus]
      exact substitute_star_taken hs (hlast.2 hstop) _
    | false =>
      rw [unstarred_of_not_starred hstar, if_neg Bool.false_ne_true, ← ih hspace Iff.rfl hus]
      cases hlist : listed.apart t u with
      | true =>
        rw [gap_of_apart hlist]
        refine substitute_star_open hs fun h h' => ?_
        obtain ⟨c, r, rfl, -⟩ := hu.exists_cons
        have hhead : (c :: r).head? = some '*' := h'
        rw [starred_iff.2 ⟨hlast.1 h, hhead⟩] at hstar
        cases hstar
      | false =>
        rw [gap_of_not_apart hlist]
        refine substitute_star_closed hs fun c hc => ?_
        obtain ⟨r, rfl⟩ := List.head?_eq_some_iff.1 (head?_of_not_listed hlist)
        obtain rfl : ',' = c := Option.some.inj hc
        decide

/-- The spacing with the stars dropped writes what the stars are dropped
to. -/
theorem substitute_listed {ts : List Text} (hts : ∀ t ∈ ts, IsWord t) :
    substitute ['.', ' ', '*'] ['.'] (listed.after [] ts) = joined.after [] ts := by
  cases ts with
  | nil => rfl
  | cons t ts =>
    rw [List.forall_mem_cons] at hts
    exact substitute_joined (space_not_mem_of_not_isBlank hts.1.2) Iff.rfl hts.2

/-- **Dropping a comma in front of a full stop** happens inside a token. -/
theorem substitute_stopped {ts : List Text} (hts : ∀ t ∈ ts, IsWord t) (b : Text) :
    substitute [',', '.'] ['.'] (joined.after b ts) = stopped.after b ts := by
  have hne : [',', '.'] ≠ [] := List.cons_ne_nil _ _
  refine substitute_after (fun b t ts ht hts => ?_) hts b
  show substitute _ _ (unstarred b t ++ (joined.gap t (ts.headD []) ++ joined.after t ts))
    = substitute _ _ (unstarred b t) ++ (joined.gap t (ts.headD []) ++ _)
  cases hapart : joined.apart t (ts.headD []) with
  | true =>
    have hjoin : ¬ Straddles [',', '.'] (unstarred b t) ([' '] ++ joined.after t ts) :=
      not_straddles_of_head? (by simp)
    have hfirst : ' ' ∉ [',', '.'].head? := by simp
    rw [gap_of_apart hapart, substitute_append hne hjoin]
    exact congrArg _ (substitute_cons_of_ne ['.'] hne hfirst _)
  | false =>
    rw [gap_of_not_apart hapart, List.nil_append, List.nil_append]
    refine substitute_append hne ?_
    cases hstar : starred t (ts.headD []) with
    | true =>
      -- behind the join a star was dropped, and in front of it there is a full stop
      have hstop : (unstarred b t).getLast? = some '.' :=
        (getLast?_unstarred (by decide)).2 (starred_iff.1 hstar).1
      exact not_straddles_of_getLast? fun c hc => by
        obtain rfl : '.' = c := Option.some.inj (hstop.symm.trans hc)
        decide
    | false =>
      -- behind the join there is a comma
      have hlist : listed.apart t (ts.headD []) = false := by
        have h : (listed.apart t (ts.headD []) && !starred t (ts.headD [])) = false := hapart
        rwa [hstar, Bool.not_false, Bool.and_true] at h
      cases ts with
      | nil => cases hlist
      | cons u us =>
        obtain ⟨r, rfl⟩ := List.head?_eq_some_iff.1 (head?_of_not_listed hlist)
        have hstar' : starred t (',' :: r) = false := hstar
        refine not_straddles_of_head? fun c hc => ?_
        rw [after] at hc
        have hcore : joined.core t (',' :: r) = ',' :: r := unstarred_of_not_starred hstar'
        rw [hcore] at hc
        obtain rfl : ',' = c := Option.some.inj hc
        decide

/-- Dropping commas leaves the last character. -/
theorem getLast?_core_stopped (b t : Text) :
    (stopped.core b t).getLast? = (unstarred b t).getLast? := by
  have hlast : ['.'].getLast? = [',', '.'].getLast? := rfl
  exact getLast?_substitute (List.cons_ne_nil _ _) hlast _

/-- **The spacing of the three steps is regular.** -/
theorem regular_stopped : stopped.Regular where
  not_isBlank_core {b t} ht c hc := by
    rcases mem_of_mem_substitute (List.cons_ne_nil _ _) hc with hc | hc
    · exact ht.2 c ((unstarred_suffix b t).subset hc)
    · obtain rfl := List.mem_singleton.1 hc
      decide
  head?_core {t u} hu h := by
    have h' : ((u.head? != some ',') && !starred t u) = true := h
    rw [Bool.and_eq_true, Bool.not_eq_true'] at h'
    obtain ⟨c, s, rfl, -⟩ := hu.exists_cons
    have hfirst : c ∉ [',', '.'].head? := fun e => by
      obtain rfl : ',' = c := Option.some.inj e
      exact absurd h'.1 (by simp)
    show (substitute _ _ (unstarred t (c :: s))).head? = _
    rw [unstarred_of_not_starred h'.2, substitute_cons_of_ne ['.'] (List.cons_ne_nil _ _) hfirst]
    rfl
  getLast?_core _ _ hc := by
    rw [getLast?_core_stopped, getLast?_unstarred hc]
  getLast?_of_core_nil {t u} hu h := by
    have hlast := getLast?_core_stopped t u
    rw [h] at hlast
    exact getLast?_of_unstarred_nil hu (List.getLast?_eq_none_iff.1 hlast.symm)

/-! ## All seven -/

/-- The spacing that the steps lead to is that of punctuation. -/
theorem closed_stopped_eq :
    (((stopped.closeBefore '.').closeBefore '(').closeBehind ')').closeBefore '?'
      = Punctuation.spacing := by
  refine congrArg (Spacing.mk _) ?_
  funext t u
  show (((((u.head? != some ',' && !starred t u) && u.head? != some '.')
      && u.head? != some '(') && t.getLast? != some ')') && u.head? != some '?')
    = (t.getLast? != some ')' && !starred t u
      && (u.head? != some ',' && (u.head? != some '.' && (u.head? != some '('
        && (u.head? != some '?' && true)))))
  rw [Bool.and_true]
  ac_rfl

end Spacing

/-- **On raw text, fixing the punctuation is its spacing.** -/
theorem Punctuation.fix_rawText (ts : List Text) (h : ∀ t ∈ ts, IsWord t) :
    fix (rawText ts) = spacing.text ts := by
  have hlisted : substitute [' ', ','] [','] (rawText ts) = Spacing.listed.after [] ts := by
    rw [Spacing.rawText_eq_after []]
    exact Spacing.regular_raw.substitute_closeBefore (by decide) h []
  have hdot := Spacing.regular_stopped.closeBefore '.'
  have hopen := hdot.closeBefore '('
  have hclose := hopen.closeBehind ')'
  show substitute [' ', '?'] ['?'] (substitute [')', ' '] [')'] (substitute [' ', '('] ['(']
    (substitute [' ', '.'] ['.'] (substitute [',', '.'] ['.'] (substitute ['.', ' ', '*'] ['.']
      (substitute [' ', ','] [','] (rawText ts)))))))  = spacing.after [] ts
  rw [hlisted, Spacing.substitute_listed h, Spacing.substitute_stopped h,
    Spacing.regular_stopped.substitute_closeBefore (by decide) h,
    hdot.substitute_closeBefore (by decide) h,
    hopen.substitute_closeBehind (by decide) (by decide) (by decide) h,
    hclose.substitute_closeBefore (by decide) h, Spacing.closed_stopped_eq]

/-- **Fixing the punctuation of raw text is one decision for each token and
one for each gap.** The seven substitutions in a row, each of the whole
text, come to what is written of every token behind the one before it and
of every gap in front of the next one. -/
theorem Punctuation.fix_rawText_eq_flatMap (ts : List Text) (h : ∀ t ∈ ts, IsWord t) :
    fix (rawText ts) = (List.range ts.length).flatMap (spacing.writtenAt [] ts) := by
  rw [fix_rawText ts h]
  exact spacing.after_eq_flatMap [] ts

/-- Tokens on which one substitution prepares what another looks for: a star
alone between full stops, a star in front of which a token lost its own, and
marks on both sides of a gap. -/
theorem Punctuation.fix_rawText_eq_flatMap_of_star_alone :
    let ts := [",.", ".", "*", "*.", "*a", ")", "(", "b,,.", "?"].map String.toList
    (∀ t ∈ ts, IsWord t)
      ∧ fix (rawText ts) = (List.range ts.length).flatMap (spacing.writtenAt [] ts)
      ∧ fix (rawText ts) = ".. *.a )( b,.? ".toList :=
  ⟨by decide, fix_rawText_eq_flatMap _ (by decide), by decide⟩

end SentenceForge

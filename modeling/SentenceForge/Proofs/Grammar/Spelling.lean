import Mathlib.Data.List.Forall2
import SentenceForge.Proofs.Grammar.Built
import SentenceForge.Proofs.Text.CaseFolding

/-!
# Grammars in another spelling

A name is seen through its case folding, so entries whose names, and whose
references to names, are spelled in another way should make the same grammar
but for the spelling. `Entry.Respelled` says what may differ between two
entries: their names up to case folding, and those of their tokens of which
one is in brackets.

That it is enough if one of them is – and that all else has to be the same –
rests on what folding does to brackets, which is nothing: of two tokens with
the same case folding both are references or neither is
(`isReference_eq_of_respelled`). From there on the relation goes through every
stage of the builder: the last definition of a name, what is kept, and the
productions (`respelled_of_ofEntries`).
-/

namespace SentenceForge

/-! ## Tokens -/

/-- **A token in brackets** opens with `<` and ends with `>`. -/
structure Text.Bracketed (t : Text) : Prop where
  /-- It opens with an angle bracket. -/
  opens : t.head? = some '<'
  /-- It ends with one. -/
  ends : t.getLast? = some '>'

/-- **A token in another spelling**: the same token, or one with the same case
folding if one of the two is in brackets. -/
inductive Text.Respelled : Text → Text → Prop where
  /-- The token is the same. -/
  | same (t : Text) : Respelled t t
  /-- One is in brackets, and they fold to the same. -/
  | folded {t t' : Text} (bracketed : Bracketed t ∨ Bracketed t') (fold_eq : fold t = fold t') :
      Respelled t t'

/-- A token refers to a name if it is in brackets. -/
theorem isReference_iff_bracketed (t : Text) : isReference t = true ↔ Text.Bracketed t := by
  unfold isReference
  rw [Bool.and_eq_true, Bool.and_eq_true, decide_eq_true_eq, beq_iff_eq, beq_iff_eq]
  constructor
  · rintro ⟨⟨-, hopens⟩, hends⟩
    exact ⟨hopens, hends⟩
  · rintro ⟨hopens, hends⟩
    refine ⟨⟨?_, hopens⟩, hends⟩
    -- a single character cannot be both brackets
    match t, hopens, hends with
    | [_], rfl, hends => exact absurd (Option.some.inj hends) (by decide)
    | _ :: _ :: t, _, _ => exact Nat.le_add_left 2 t.length

instance (t : Text) : Decidable (Text.Bracketed t) :=
  decidable_of_iff (isReference t = true) (isReference_iff_bracketed t)

instance (t t' : Text) : Decidable (Text.Respelled t t') :=
  decidable_of_iff
    (t = t' ∨ (Text.Bracketed t ∨ Text.Bracketed t') ∧ Text.fold t = Text.fold t')
    ⟨fun h => h.elim (fun e => e ▸ .same t) fun h => .folded h.1 h.2,
      fun h => by cases h with
        | same => exact .inl rfl
        | folded bracketed fold_eq => exact .inr ⟨bracketed, fold_eq⟩⟩

/-- Folding leaves a token in its brackets, and puts none into any. -/
theorem bracketed_fold_iff (t : Text) : Text.Bracketed (Text.fold t) ↔ Text.Bracketed t := by
  constructor
  · rintro ⟨hopens, hends⟩
    exact ⟨(Text.head?_fold_iff Text.isMark_open t).1 hopens,
      (Text.getLast?_fold_iff Text.isMark_close t).1 hends⟩
  · rintro ⟨hopens, hends⟩
    exact ⟨(Text.head?_fold_iff Text.isMark_open t).2 hopens,
      (Text.getLast?_fold_iff Text.isMark_close t).2 hends⟩

/-- **Of two tokens with the same case folding both are references or neither
is.** -/
theorem isReference_eq_of_fold_eq {t t' : Text} (h : Text.fold t = Text.fold t') :
    isReference t = isReference t' := by
  rw [Bool.eq_iff_iff, isReference_iff_bracketed, isReference_iff_bracketed,
    ← bracketed_fold_iff t, h, bracketed_fold_iff]

/-- A token in another spelling is a reference if the token is. -/
theorem isReference_eq_of_respelled {t t' : Text} (h : Text.Respelled t t') :
    isReference t = isReference t' := by
  cases h with
  | same => rfl
  | folded bracketed fold_eq => exact isReference_eq_of_fold_eq fold_eq

/-! ## What is made of tokens -/

/-- A symbol in another spelling. -/
inductive Symbol.Respelled : Symbol → Symbol → Prop where
  /-- A terminal is the same. -/
  | terminal (t : Text) : Respelled (.terminal t) (.terminal t)
  /-- A reference is to the same name. -/
  | reference {n n' : Text} (fold_eq : Text.fold n = Text.fold n') :
      Respelled (.reference n) (.reference n')

/-- A production in another spelling. -/
structure Production.Respelled (p p' : Production) : Prop where
  /-- The name is the same. -/
  name : Text.fold p.name = Text.fold p'.name
  /-- The symbols are. -/
  body : List.Forall₂ Symbol.Respelled p.body p'.body

/-- A symbol is one in its own spelling. -/
theorem Symbol.Respelled.refl : ∀ x : Symbol, x.Respelled x
  | .terminal t => .terminal t
  | .reference _ => .reference rfl

/-- A production is one in its own spelling. -/
theorem Production.Respelled.refl (p : Production) : p.Respelled p :=
  ⟨rfl, List.forall₂_same.2 fun x _ => .refl x⟩

/-- Bodies as text in another spelling, token by token. -/
def Text.BodyRespelled (b b' : Text) : Prop := List.Forall₂ Respelled (words b) (words b')

instance (b b' : Text) : Decidable (Text.BodyRespelled b b') :=
  inferInstanceAs (Decidable (List.Forall₂ Text.Respelled _ _))

/-- A definition in another spelling. -/
structure Definition.Respelled (d d' : Definition) : Prop where
  /-- The name is the same. -/
  name : Text.fold d.name = Text.fold d'.name
  /-- The bodies are. -/
  bodies : List.Forall₂ Text.BodyRespelled d.bodies d'.bodies

/-- **An entry in another spelling**: the same name and as many bodies, with
the same tokens. An empty entry is none. -/
inductive Entry.Respelled : Entry → Entry → Prop where
  /-- Both have a name. -/
  | entry {name name' : Text} {bodies bodies' : List Text}
      (fold_eq : Text.fold name = Text.fold name')
      (respelled : List.Forall₂ Text.BodyRespelled bodies bodies') :
      Respelled (name :: bodies) (name' :: bodies')

instance : (e e' : Entry) → Decidable (e.Respelled e')
  | [], _ => .isFalse fun h => nomatch h
  | _ :: _, [] => .isFalse fun h => nomatch h
  | name :: bodies, name' :: bodies' =>
    decidable_of_iff
      (Text.fold name = Text.fold name' ∧ List.Forall₂ Text.BodyRespelled bodies bodies')
      ⟨fun h => .entry h.1 h.2, fun (.entry fold_eq respelled) => ⟨fold_eq, respelled⟩⟩

/-- **Tokens in another spelling are the same symbols** in that spelling. -/
theorem Symbol.respelled_ofToken {t t' : Text} (h : Text.Respelled t t') :
    Respelled (ofToken t) (ofToken t') := by
  have hsame := isReference_eq_of_respelled h
  unfold ofToken
  rw [← hsame]
  cases h with
  | same =>
    cases isReference t with
    | true => exact .reference rfl
    | false => exact .terminal t
  | folded bracketed fold_eq =>
    have href : isReference t = true :=
      bracketed.elim (isReference_iff_bracketed t).2
        fun h => hsame.trans ((isReference_iff_bracketed t').2 h)
    rw [href]
    exact .reference fold_eq

namespace Definition

variable {d d' : Definition} {ds ds' : List Definition}

/-- A definition in another spelling makes the productions of the definition in
that spelling. -/
theorem Respelled.productions (h : d.Respelled d') :
    List.Forall₂ Production.Respelled d.productions d'.productions := by
  have hbody : ∀ b b', Text.BodyRespelled b b' →
      (Production.ofText d.name b).Respelled (Production.ofText d'.name b') := by
    intro b b' hb
    refine ⟨h.name, ?_⟩
    show List.Forall₂ _ ((Text.words b).map Symbol.ofToken) ((Text.words b').map Symbol.ofToken)
    rw [List.forall₂_map_left_iff, List.forall₂_map_right_iff]
    exact hb.imp fun _ _ => Symbol.respelled_ofToken
  show List.Forall₂ _ (d.bodies.map (Production.ofText d.name))
    (d'.bodies.map (Production.ofText d'.name))
  rw [List.forall₂_map_left_iff, List.forall₂_map_right_iff]
  exact h.bodies.imp hbody

section Kept

variable (h : List.Forall₂ Definition.Respelled ds ds')

include h

/-- Definitions in another spelling have the same names. -/
theorem map_key_eq_of_respelled : ds.map key = ds'.map key := by
  rw [← List.forall₂_eq_eq_eq, List.forall₂_map_left_iff, List.forall₂_map_right_iff]
  exact h.imp fun _ _ hd => hd.name

/-- The last definition of a name is the last in the other spelling. -/
theorem rel_lastOf (k : Text) :
    Option.Rel Definition.Respelled (lastOf ds k) (lastOf ds' k) := by
  have hof : List.Forall₂ Definition.Respelled (ds.filter (·.key = k)) (ds'.filter (·.key = k)) :=
    List.rel_filter
      (fun _ _ hd => iff_of_eq (congrArg (fun x => decide (x = k) = true) hd.name)) h
  unfold lastOf
  rw [List.getLast?_eq_head?_reverse, List.getLast?_eq_head?_reverse]
  generalize (ds.filter (·.key = k)).reverse = last, (ds'.filter (·.key = k)).reverse = last',
    List.rel_reverse hof = hlast
  cases hlast with
  | nil => exact .none
  | cons hd _ => exact .some hd

/-- **What is kept in the other spelling is what is kept**, in that
spelling. -/
theorem rel_kept : List.Forall₂ Definition.Respelled (kept ds) (kept ds') := by
  unfold kept
  rw [← map_key_eq_of_respelled h]
  refine List.rel_filterMap ?_ (List.forall₂_same.2 fun k _ => rfl)
  rintro k _ rfl
  exact rel_lastOf h k

end Kept

end Definition

namespace Grammar

open Definition

/-- **A grammar in another spelling**: the same start, and the same productions
in the same order. -/
structure Respelled (g g' : Grammar) : Prop where
  /-- The start is the same. -/
  start : Text.fold g.start = Text.fold g'.start
  /-- The productions are. -/
  productions : List.Forall₂ Production.Respelled g.productions g'.productions

/-- A grammar is one in its own spelling. -/
theorem Respelled.refl (g : Grammar) : g.Respelled g :=
  ⟨rfl, List.forall₂_same.2 fun p _ => .refl p⟩

/-- **A name has the same alternatives in either spelling** of the grammar and
of the name. -/
theorem Respelled.alternatives {g g' : Grammar} (h : g.Respelled g') {x x' : Text}
    (same : Text.fold x = Text.fold x') :
    List.Forall₂ Production.Respelled (g.alternatives x) (g'.alternatives x') := by
  rw [alternatives_eq_filter, alternatives_eq_filter, ← same]
  exact List.rel_filter
    (fun _ _ hp => iff_of_eq (congrArg (fun n => decide (n = Text.fold x) = true) hp.name))
    h.productions

/-- The grammars of definitions in two spellings differ in spelling only. -/
theorem respelled_ofDefinitions {ds ds' : List Definition}
    (h : List.Forall₂ Definition.Respelled ds ds') :
    (ofDefinitions ds).Respelled (ofDefinitions ds') where
  start := (fold_startOf _).trans (fold_startOf _).symm
  productions := List.rel_flatMap h fun _ _ => Definition.Respelled.productions

/-- Entries in two spellings are those of definitions in two spellings. -/
theorem exists_definitions_of_respelled {es es' : List Entry}
    (h : List.Forall₂ Entry.Respelled es es') :
    ∃ ds ds' : List Definition, es = ds.map entry ∧ es' = ds'.map entry
      ∧ List.Forall₂ Definition.Respelled ds ds' := by
  induction h with
  | nil => exact ⟨[], [], rfl, rfl, .nil⟩
  | cons he _ ih =>
    obtain ⟨ds, ds', rfl, rfl, hds⟩ := ih
    cases he with
    | @entry name name' bodies bodies' fold_eq respelled =>
      exact ⟨⟨name, bodies⟩ :: ds, ⟨name', bodies'⟩ :: ds', rfl, rfl, .cons ⟨fold_eq, respelled⟩ hds⟩

/-- **Entries in another spelling make the same grammar** in that spelling, or
as they do none, for want of a production. -/
theorem respelled_of_ofEntries {es es' : List Entry} (h : List.Forall₂ Entry.Respelled es es') :
    (∃ g g', (ofEntries es).result = .ok g ∧ (ofEntries es').result = .ok g' ∧ g.Respelled g')
      ∨ (ofEntries es).result = .error (.grammar (.noStart startName))
        ∧ (ofEntries es').result = .error (.grammar (.noStart startName)) := by
  obtain ⟨ds, ds', rfl, rfl, hds⟩ := exists_definitions_of_respelled h
  have hmade := respelled_ofDefinitions (rel_kept hds)
  have hnone : (kept ds).flatMap Definition.productions = []
      ↔ (kept ds').flatMap Definition.productions = [] := by
    rw [← List.length_eq_zero_iff, ← List.length_eq_zero_iff]
    exact iff_of_eq (congrArg (· = 0) hmade.productions.length_eq)
  rw [ofEntries_definitions, ofEntries_definitions]
  by_cases hps : (kept ds).flatMap Definition.productions = []
  · right
    rw [if_pos hps, if_pos (hnone.1 hps)]
    exact ⟨rfl, rfl⟩
  · left
    rw [if_neg hps, if_neg (mt hnone.2 hps)]
    exact ⟨_, _, rfl, rfl, hmade⟩

end Grammar

end SentenceForge

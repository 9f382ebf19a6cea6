import SentenceForge.Derivation
import SentenceForge.Proofs.Expansion.Run
import SentenceForge.Proofs.Grammar.Built

/-!
# A run that ends is a derivation

A run that is not stopped has followed a derivation: its terminals are
those of the tree, and its choices and the names it passed over are those
of the tree in preorder, so one traversal accounts for all three. Levels
are what bounds the height, and since a name is checked before it is
looked up, a bare leaf takes a level as any other name does.

The two directions are one induction each. A run is followed down its
levels and along its bodies to the tree it followed (`exists_follows`). A
tree within the levels is followed by any source that answers with its
choices (`Derivation.run_follows`), and a script is such a source.
-/

namespace SentenceForge

/-! ## Runs that follow a derivation -/

/-- **A run follows a derivation** with these terminals, choices and bare
leaves, and leaves its source in a state. -/
structure Run.Follows {σ : Type} (r : Run σ) (terminals : List Text)
    (choices : List Choice) (leaves : List Text) (after : σ) : Prop where
  /-- It says the terminals. -/
  outcome : r.outcome = .ok terminals
  /-- It makes the choices. -/
  choices_eq : r.choices = choices
  /-- It gives notice of the leaves. -/
  notices_eq : r.notices = leaves.map Notice.skipped
  /-- It leaves the source there. -/
  source_eq : r.source = after

namespace Run.Follows

variable {σ : Type} {s s' : σ} {ts ts' : List Text} {cs cs' : List Choice}
  {ls ls' : List Text}

/-- The idle run follows the derivation of nothing. -/
theorem idle (s : σ) : (Run.idle s).Follows [] [] [] s := ⟨rfl, rfl, rfl, rfl⟩

/-- A terminal in front is the first of the derivation. -/
theorem said {r : Run σ} (t : Text) (h : r.Follows ts cs ls s) :
    (r.said t).Follows (t :: ts) cs ls s := by
  refine ⟨?_, h.choices_eq, h.notices_eq, h.source_eq⟩
  show r.outcome.map (t :: ·) = _
  rw [h.outcome]
  rfl

/-- **Runs in a row follow derivations in a row.** -/
theorem andThen {r : Run σ} {next : σ → Run σ} (h : r.Follows ts cs ls s)
    (h' : (next s).Follows ts' cs' ls' s') :
    (r.andThen next).Follows (ts ++ ts') (cs ++ cs') (ls ++ ls') s' := by
  rw [andThen_of_ok h.outcome, h.source_eq]
  refine ⟨?_, ?_, ?_, h'.source_eq⟩
  · show (next s).outcome.map (ts ++ ·) = _
    rw [h'.outcome]
    rfl
  · rw [← h.choices_eq, ← h'.choices_eq]
    exact List.filterMap_append
  · rw [List.map_append, ← h.notices_eq, ← h'.notices_eq]
    exact List.filterMap_append

/-- **A choice in front of a derivation** is the first of it. -/
theorem chose {r : Run σ} (depth : Nat) (name : Text) (c : Choice)
    (h : r.Follows ts cs ls s) :
    Follows ⟨⟨depth, name, .chose c⟩ :: r.visits, r.outcome, r.source⟩ ts
      (c :: cs) ls s := by
  refine ⟨h.outcome, ?_, ?_, h.source_eq⟩
  · show c :: r.choices = _
    rw [h.choices_eq]
  · exact h.notices_eq

end Run.Follows

/-! ## From a run to its derivation -/

section Soundness

variable {σ : Type} {g : Grammar}

/-- A body's derivation under an alternative makes a derivation of the
name. -/
theorem BodyDerivation.exists_node {name : Text} {as : List Production}
    (h : g.alternatives name = as) (i : Fin as.length)
    (b : BodyDerivation g (as.get i).body) :
    ∃ t : Derivation g name, t.height = b.height + 1 ∧ t.terminals = b.terminals
      ∧ t.choices = ⟨as.length, i⟩ :: b.choices ∧ t.leaves = b.leaves := by
  subst h
  exact ⟨.node name i b, rfl, rfl, rfl, rfl⟩

/-- **A run of a body that says something follows a derivation of it**, if
the runs of its references do. -/
theorem exists_body_follows {levels : Nat} {expand : Text → σ → Run σ}
    (ih : ∀ name s us, (expand name s).outcome = .ok us →
      ∃ t : Derivation g name, t.height ≤ levels
        ∧ (expand name s).Follows t.terminals t.choices t.leaves (expand name s).source)
    (body : List Symbol) (s : σ) (us : List Text)
    (h : (Run.ofBody expand body s).outcome = .ok us) :
    ∃ b : BodyDerivation g body, b.height ≤ levels
      ∧ (Run.ofBody expand body s).Follows b.terminals b.choices b.leaves
        (Run.ofBody expand body s).source := by
  induction body generalizing s us with
  | nil => exact ⟨.done, Nat.zero_le _, .idle s⟩
  | cons x body ihbody =>
    cases x with
    | terminal t =>
      obtain ⟨ts, hts, -⟩ := Run.said_outcome_ok h
      obtain ⟨b, hb, hf⟩ := ihbody s ts hts
      exact ⟨.terminal t b, hb, hf.said t⟩
    | reference name =>
      obtain ⟨ts, ts', hts, hts', -⟩ := Run.andThen_outcome_ok h
      obtain ⟨t, ht, hf⟩ := ih name s ts hts
      obtain ⟨b, hb, hf'⟩ := ihbody _ ts' hts'
      have hboth := hf.andThen hf'
      refine ⟨.reference name t b, Nat.max_le.2 ⟨ht, hb⟩, ?_⟩
      rw [hboth.source_eq.symm] at hboth
      exact hboth

/-- **A run that says something follows a derivation** no higher than its
levels, strict or not. -/
theorem exists_follows (source : Source σ) (strict : Bool) (levels depth : Nat)
    (name : Text) (s : σ) (us : List Text)
    (h : (g.run source strict levels depth name s).outcome = .ok us) :
    ∃ t : Derivation g name, t.height ≤ levels
      ∧ (g.run source strict levels depth name s).Follows t.terminals t.choices
        t.leaves (g.run source strict levels depth name s).source := by
  -- a body is run with one level less, so `ih` is what its references need
  induction levels generalizing depth name s us with
  | zero => cases h
  | succ levels ih =>
    cases ha : g.alternatives name with
    | nil =>
      cases strict with
      | true =>
        rw [Grammar.run_strict_of_undefined source ha] at h
        cases h
      | false =>
        rw [Grammar.run_lenient_of_undefined source ha]
        exact ⟨.leaf name ha, Nat.le_add_left 1 levels, rfl, rfl, rfl, rfl⟩
    | cons p ps =>
      rw [Grammar.run_of_defined source strict ha] at h ⊢
      obtain ⟨b, hb, hf⟩ := exists_body_follows (ih (depth + 1)) _ _ us h
      obtain ⟨t, hheight, hts, hcs, hls⟩ := b.exists_node ha (source.draw ps.length s).1
      refine ⟨t, hheight ▸ Nat.succ_le_succ hb, ?_⟩
      rw [hts, hcs, hls]
      exact hf.chose depth name _

end Soundness

/-! ## From a derivation to a run of it -/

section Completeness

variable {σ : Type} {g : Grammar} {source : Source σ}

mutual

/-- **A source that answers with the choices of a derivation follows
it**, given as many levels as it is high. -/
theorem Derivation.run_follows {name : Text} :
    (t : Derivation g name) → (levels depth : Nat) → (s s' : σ) →
      t.height ≤ levels → source.Answers s t.choices s' →
      (g.run source false levels depth name s).Follows t.terminals t.choices t.leaves s'
  | .leaf name undefined, levels, depth, s, s', hlevels, hanswers => by
    -- a bare leaf takes a level too, which is why its height is not zero
    obtain ⟨levels, rfl⟩ := Nat.exists_eq_succ_of_ne_zero (Nat.ne_zero_of_lt hlevels)
    cases hanswers
    rw [Grammar.run_lenient_of_undefined source undefined]
    exact ⟨rfl, rfl, rfl, rfl⟩
  | .node name choice body, levels, depth, s, s', hlevels, hanswers => by
    obtain ⟨levels, rfl⟩ := Nat.exists_eq_succ_of_ne_zero (Nat.ne_zero_of_lt hlevels)
    obtain ⟨k, hk, hdraw, hrest⟩ := Source.Answers.of_cons hanswers
    rw [Grammar.run_of_draw source false choice hk hdraw]
    exact (body.run_follows levels (depth + 1) _ s' (Nat.le_of_succ_le_succ hlevels)
      hrest).chose depth name _

/-- The same of a body. -/
theorem BodyDerivation.run_follows {body : List Symbol} :
    (b : BodyDerivation g body) → (levels depth : Nat) → (s s' : σ) →
      b.height ≤ levels → source.Answers s b.choices s' →
      (Run.ofBody (g.run source false levels depth) body s).Follows b.terminals
        b.choices b.leaves s'
  | .done, levels, depth, s, s', hlevels, hanswers => by
    cases hanswers
    exact .idle s
  | .terminal token rest, levels, depth, s, s', hlevels, hanswers =>
    (rest.run_follows levels depth s s' hlevels hanswers).said token
  | .reference name here rest, levels, depth, s, s', hlevels, hanswers => by
    obtain ⟨k, hhere, hrest⟩ := Source.Answers.of_append hanswers
    obtain ⟨hle, hle'⟩ := Nat.max_le.1 hlevels
    exact (here.run_follows levels depth s k hle hhere).andThen
      (rest.run_follows levels depth k s' hle' hrest)

end

end Completeness

/-! ## The choices and the terminals of a derivation -/

section Contents

variable {g : Grammar}

mutual

/-- The choices of a derivation could be made. -/
theorem Derivation.valid_choices {name : Text} :
    (t : Derivation g name) → ∀ c ∈ t.choices, c.Valid
  | .leaf _ _, _, hc => absurd hc List.not_mem_nil
  | .node _ choice body, c, hc => by
    rcases List.mem_cons.1 hc with rfl | hc
    · exact choice.isLt
    · exact body.valid_choices c hc

theorem BodyDerivation.valid_choices {body : List Symbol} :
    (b : BodyDerivation g body) → ∀ c ∈ b.choices, c.Valid
  | .done, _, hc => absurd hc List.not_mem_nil
  | .terminal _ rest, c, hc => rest.valid_choices c hc
  | .reference _ here rest, c, hc =>
    (List.mem_append.1 hc).elim (here.valid_choices c) (rest.valid_choices c)

end

mutual

/-- A terminal of a derivation stands in a production. -/
theorem Derivation.mem_of_mem_terminals {name : Text} :
    (t : Derivation g name) → ∀ u ∈ t.terminals,
      ∃ p ∈ g.productions, Symbol.terminal u ∈ p.body
  | .leaf _ _, _, hu => absurd hu List.not_mem_nil
  | .node name choice body, u, hu => by
    rcases body.mem_of_mem_terminals u hu with hu | hu
    · exact ⟨(g.alternatives name).get choice,
        Grammar.mem_of_mem_alternatives (List.get_mem _ choice), hu⟩
    · exact hu

theorem BodyDerivation.mem_of_mem_terminals {body : List Symbol} :
    (b : BodyDerivation g body) → ∀ u ∈ b.terminals,
      Symbol.terminal u ∈ body ∨ ∃ p ∈ g.productions, Symbol.terminal u ∈ p.body
  | .done, _, hu => absurd hu List.not_mem_nil
  | .terminal token rest, u, hu => by
    rcases List.mem_cons.1 hu with rfl | hu
    · exact .inl List.mem_cons_self
    · exact (rest.mem_of_mem_terminals u hu).imp_left (List.mem_cons_of_mem _)
  | .reference _ here rest, u, hu => by
    rcases List.mem_append.1 hu with hu | hu
    · exact .inr (here.mem_of_mem_terminals u hu)
    · exact (rest.mem_of_mem_terminals u hu).imp_left (List.mem_cons_of_mem _)

end

end Contents

/-- **Raw text spreads its terminals**, if they are words. -/
theorem spreads_rawText {ts : List Text} (h : ∀ t ∈ ts, Text.IsWord t) :
    Text.Spreads ts (rawText ts) := by
  induction ts with
  | nil => exact .blank Text.allBlank_nil
  | cons t ts ih =>
    rw [List.forall_mem_cons] at h
    have hrest : Text.Spreads ts (' ' :: rawText ts) :=
      (ih h.2).cons_blank Text.isBlank_space
    have hraw : rawText (t :: ts) = [] ++ t ++ ' ' :: rawText ts := by simp [rawText]
    rw [hraw]
    exact .word Text.allBlank_nil h.1 ((Text.setsOff_cons _ _).2 Text.isBlank_space) hrest

/-! ## Expansions and derivations -/

namespace Grammar

variable {σ : Type} {g : Grammar} {source : Source σ}

/-- What is expanded is what the run says. -/
theorem expand_result_ok {settings : Settings} {name raw : Text} {s : σ}
    (h : (g.expand source settings name s).result = .ok raw) :
    ∃ ts, (g.run source settings.strict settings.levels 0 name s).outcome = .ok ts
      ∧ raw = rawText ts := by
  unfold expand at h
  cases hrun : (g.run source settings.strict settings.levels 0 name s).outcome with
  | error e =>
    simp only [hrun] at h
    cases h
  | ok ts =>
    simp only [hrun] at h
    exact ⟨ts, rfl, (Except.ok.inj h).symm⟩

/-- **A run that follows a derivation is expanded to its raw text.** -/
theorem expand_of_follows (settings : Settings) {name : Text} {s s' : σ}
    {ts ls : List Text} {cs : List Choice}
    (h : (g.run source settings.strict settings.levels 0 name s).Follows ts cs ls s') :
    g.expand source settings name s = ⟨ls.map .skipped, cs, .ok (rawText ts), s'⟩ := by
  unfold expand
  simp only [h.outcome, h.choices_eq, h.notices_eq, h.source_eq]
  rfl

/-- **A limit admits the heights it admits as levels.** -/
theorem height_le_levels_iff {settings : Settings} {limit : Int}
    (h : settings.maxDepth = some limit) {name : Text} (t : Derivation g name) :
    t.height ≤ settings.levels ↔ (t.height : Int) ≤ limit := by
  have hpos := t.height_pos
  have hlevels : settings.levels = limit.toNat := by rw [Settings.levels, h]
  omega

/-- **What a name expands to is what it derives.** A text is the lenient
expansion of a name within a limit, for some source, exactly if it is the
raw text of a derivation no higher than the limit, and every such
derivation is the expansion for a source that makes its choices. Every
expansion that succeeds follows a derivation: it makes the choices of the
tree in preorder, gives notice of its bare leaves in preorder, and its
words are the terminals of the tree. -/
theorem expand_iff_derivation {entries : List Entry} {g : Grammar}
    (built : (ofEntries entries).result = .ok g) (name : Text) (limit : Int) :
    (∀ raw : Text,
      (∃ (σ : Type) (source : Source σ) (s : σ),
        (g.expand source { maxDepth := some limit } name s).result = .ok raw)
      ↔ ∃ t : Derivation g name, (t.height : Int) ≤ limit ∧ raw = rawText t.terminals)
    ∧ (∀ t : Derivation g name, (t.height : Int) ≤ limit →
      ∃ (σ : Type) (source : Source σ) (s s' : σ),
        g.expand source { maxDepth := some limit } name s
          = ⟨t.leaves.map .skipped, t.choices, .ok (rawText t.terminals), s'⟩)
    ∧ ∀ (σ : Type) (source : Source σ) (settings : Settings) (s : σ) (raw : Text),
      (g.expand source settings name s).result = .ok raw →
      ∃ t : Derivation g name, (∀ d, settings.maxDepth = some d → (t.height : Int) ≤ d)
        ∧ raw = rawText t.terminals
        ∧ (g.expand source settings name s).choices = t.choices
        ∧ (g.expand source settings name s).notices = t.leaves.map .skipped
        ∧ Text.words raw = t.terminals := by
  have complete : ∀ t : Derivation g name, (t.height : Int) ≤ limit →
      ∃ (σ : Type) (source : Source σ) (s s' : σ),
        g.expand source { maxDepth := some limit } name s
          = ⟨t.leaves.map .skipped, t.choices, .ok (rawText t.terminals), s'⟩ := by
    intro t ht
    have hlevels : t.height ≤ Settings.levels { maxDepth := some limit } :=
      (height_le_levels_iff rfl t).2 ht
    have hfollows := t.run_follows _ 0 _ _ hlevels
      (Random.Chooser.answers_script t.valid_choices [])
    exact ⟨_, _, _, _, expand_of_follows { maxDepth := some limit } hfollows⟩
  have sound : ∀ (σ : Type) (source : Source σ) (settings : Settings) (s : σ) (raw : Text),
      (g.expand source settings name s).result = .ok raw →
      ∃ t : Derivation g name, (∀ d, settings.maxDepth = some d → (t.height : Int) ≤ d)
        ∧ raw = rawText t.terminals
        ∧ (g.expand source settings name s).choices = t.choices
        ∧ (g.expand source settings name s).notices = t.leaves.map .skipped
        ∧ Text.words raw = t.terminals := by
    intro σ source settings s raw h
    obtain ⟨us, hus, -⟩ := expand_result_ok h
    obtain ⟨t, ht, hfollows⟩ := exists_follows source settings.strict _ 0 name s us hus
    have hexpand := expand_of_follows settings hfollows
    obtain ⟨ds, -, rfl, -⟩ := exists_kept_of_ofEntries built
    have hwords : ∀ u ∈ t.terminals, Text.IsWord u := by
      intro u hu
      obtain ⟨p, hp, hup⟩ := t.mem_of_mem_terminals u hu
      exact (isWord_of_mem_body hp hup).1
    rw [hexpand] at h ⊢
    obtain rfl : rawText t.terminals = raw := Except.ok.inj h
    exact ⟨t, fun d hd => (height_le_levels_iff hd t).1 ht, rfl, rfl, rfl,
      (spreads_rawText hwords).words_eq⟩
  refine ⟨fun raw => ⟨?_, ?_⟩, complete, sound⟩
  · rintro ⟨σ, source, s, h⟩
    obtain ⟨t, ht, hraw, -⟩ := sound σ source { maxDepth := some limit } s raw h
    exact ⟨t, ht limit rfl, hraw⟩
  · rintro ⟨t, ht, rfl⟩
    obtain ⟨σ, source, s, s', h⟩ := complete t ht
    exact ⟨σ, source, s, by rw [h]⟩

/-- In a cyclic grammar with a name left undefined, a derivation of height
two that passes over that name. -/
theorem expand_iff_derivation_of_cyclic :
    ∃ g, (ofEntries [["<start>".toList, "a <b> <c>".toList, []],
        ["<B>".toList, "b".toList, "<start>".toList]]).result = .ok g
      ∧ ∃ t : Derivation g startName, (t.height : Int) ≤ 2
        ∧ "a b ".toList = rawText t.terminals
        ∧ [⟨2, 0⟩, ⟨2, 0⟩] = t.choices
        ∧ [Notice.skipped "<c>".toList] = t.leaves.map .skipped
        ∧ Text.words "a b ".toList = t.terminals := by
  have built : (ofEntries [["<start>".toList, "a <b> <c>".toList, []],
        ["<B>".toList, "b".toList, "<start>".toList]]).result
      = .ok (ofDefinitions [⟨"<start>".toList, ["a <b> <c>".toList, []]⟩,
        ⟨"<B>".toList, ["b".toList, "<start>".toList]⟩]) := by rfl
  obtain ⟨t, hheight, hrest⟩ := (expand_iff_derivation built startName 2).2.2 _
    Random.Chooser.source { maxDepth := some 2 } .first "a b ".toList (by rfl)
  exact ⟨_, built, t, hheight 2 rfl, hrest⟩

end Grammar

end SentenceForge

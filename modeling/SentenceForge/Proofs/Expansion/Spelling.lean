import SentenceForge.Proofs.Expansion.Run
import SentenceForge.Proofs.Grammar.Spelling
import SentenceForge.Sentence.Basic

/-!
# Expansion in another spelling

An expansion asks its grammar for the alternatives of a name and its source
for one of so many. The grammar sees a name through its case folding, and the
source sees no name at all. So two grammars that differ in spelling expand a
name alike: they make the same choices and say the same terminals, which have
no other spelling, and where one is stopped the other is, at the same name.

A run does not keep the spelling to itself: the name that it is stopped at is
written as the reference to it is. `Alike` is the relation that this leaves
between two results.
-/

namespace SentenceForge

/-! ## Results in two spellings -/

/-- What stops a run, with its name in another spelling. -/
inductive Stop.Respelled : Stop → Stop → Prop where
  /-- The name is refused. -/
  | refused {n n' : Text} (fold_eq : Text.fold n = Text.fold n') :
      Respelled (.refused n) (.refused n')
  /-- The name lies too deep. -/
  | cutOff {n n' : Text} (fold_eq : Text.fold n = Text.fold n') :
      Respelled (.cutOff n) (.cutOff n')

/-- **An error of an expansion with its name in another spelling.** -/
inductive Error.Respelled : Error → Error → Prop where
  /-- The name is not defined. -/
  | undefined {n n' : Text} (fold_eq : Text.fold n = Text.fold n') :
      Respelled (.grammar (.undefined n)) (.grammar (.undefined n'))
  /-- The name lies at the limit. -/
  | tooDeep {n n' : Text} (limit : Int) (fold_eq : Text.fold n = Text.fold n') :
      Respelled (.grammar (.tooDeep n limit)) (.grammar (.tooDeep n' limit))
  /-- There is no room left for the name. -/
  | exhausted {n n' : Text} (fold_eq : Text.fold n = Text.fold n') :
      Respelled (.exhausted n) (.exhausted n')

/-- **Results that are alike**: the same value, or errors that are related. -/
inductive Alike {ε α : Type} (R : ε → ε → Prop) : Except ε α → Except ε α → Prop where
  /-- The value is the same. -/
  | ok (a : α) : Alike R (.ok a) (.ok a)
  /-- The errors are related. -/
  | error {e e' : ε} (related : R e e') : Alike R (.error e) (.error e')

section Alike

variable {ε δ α β : Type} {R : ε → ε → Prop} {x x' : Except ε α}

/-- What is made of the values is alike. -/
theorem Alike.map (h : Alike R x x') (f : α → β) : Alike R (x.map f) (x'.map f) := by
  cases h with
  | ok a => exact .ok (f a)
  | error related => exact .error related

/-- Results are alike in other errors, if these are related. -/
theorem Alike.mapError (h : Alike R x x') {S : δ → δ → Prop} {f : ε → δ}
    (hf : ∀ e e', R e e' → S (f e) (f e')) : Alike S (x.mapError f) (x'.mapError f) := by
  cases h with
  | ok a => exact .ok a
  | error related => exact .error (hf _ _ related)

end Alike

/-- A stop in another spelling is reported as an error in that spelling. -/
theorem Settings.errorOf_respelled (settings : Settings) {stop stop' : Stop}
    (h : stop.Respelled stop') : (settings.errorOf stop).Respelled (settings.errorOf stop') := by
  cases h with
  | refused fold_eq => exact .undefined fold_eq
  | cutOff fold_eq =>
    unfold errorOf
    cases settings.maxDepth with
    | some limit => exact .tooDeep limit fold_eq
    | none => exact .exhausted fold_eq

/-! ## Runs -/

namespace Run

variable {σ : Type} {r r' : Run σ}

/-- **A run in another spelling**: the same but for the spelling of the names
reached. -/
structure Respelled (r r' : Run σ) : Prop where
  /-- The choices are the same. -/
  choices : r.choices = r'.choices
  /-- The outcome is. -/
  outcome : Alike Stop.Respelled r.outcome r'.outcome
  /-- The source remembers the same. -/
  source : r.source = r'.source

/-- A terminal in front has the same spelling in both. -/
theorem Respelled.said (t : Text) (h : r.Respelled r') : (r.said t).Respelled (r'.said t) :=
  ⟨h.choices, h.outcome.map _, h.source⟩

/-- A choice in front has no spelling. -/
theorem Respelled.chose {c c' : Choice} (same : c = c') (depth : Nat) (name name' : Text)
    (h : r.Respelled r') :
    Respelled ⟨⟨depth, name, .chose c⟩ :: r.visits, r.outcome, r.source⟩
      ⟨⟨depth, name', .chose c'⟩ :: r'.visits, r'.outcome, r'.source⟩ :=
  ⟨congrArg₂ List.cons same h.choices, h.outcome, h.source⟩

/-- **Runs in a row in another spelling**: the second is run after both of the
first or after neither. -/
theorem Respelled.andThen {next next' : σ → Run σ} (h : r.Respelled r')
    (hnext : ∀ s, (next s).Respelled (next' s)) :
    (r.andThen next).Respelled (r'.andThen next') := by
  obtain ⟨visits, outcome, source⟩ := r
  obtain ⟨visits', outcome', source'⟩ := r'
  obtain ⟨hchoices, houtcome, rfl⟩ := h
  cases houtcome with
  | error related => exact ⟨hchoices, .error related, rfl⟩
  | ok ts =>
    refine ⟨?_, (hnext source).outcome.map _, (hnext source).source⟩
    show (visits ++ (next source).visits).filterMap Visit.choice?
      = (visits' ++ (next' source).visits).filterMap Visit.choice?
    rw [List.filterMap_append, List.filterMap_append]
    exact congrArg₂ (· ++ ·) hchoices (hnext source).choices

/-- **A body in another spelling runs as its references do.** -/
theorem Respelled.ofBody {expand expand' : Text → σ → Run σ}
    (h : ∀ n n', Text.fold n = Text.fold n' → ∀ s, (expand n s).Respelled (expand' n' s))
    {body body' : List Symbol} (hbody : List.Forall₂ Symbol.Respelled body body') (s : σ) :
    (Run.ofBody expand body s).Respelled (Run.ofBody expand' body' s) := by
  induction hbody generalizing s with
  | nil => exact ⟨rfl, .ok [], rfl⟩
  | cons hx _ ih =>
    cases hx with
    | terminal t => exact (ih s).said t
    | reference fold_eq => exact (h _ _ fold_eq s).andThen ih

end Run

/-! ## Expansions -/

/-- **A generation in another spelling**: the same choices, the same result or
an error in that spelling, and the same memory of the source. -/
structure Generation.Respelled {σ α : Type} (x x' : Generation σ α) : Prop where
  /-- The choices are the same. -/
  choices : x.choices = x'.choices
  /-- The result is. -/
  result : Alike Error.Respelled x.result x'.result
  /-- The source remembers the same. -/
  source : x.source = x'.source

/-- What is made of the result has no spelling of its own. -/
theorem Generation.Respelled.map {σ α β : Type} {x x' : Generation σ α} (h : x.Respelled x')
    (f : α → β) : (x.map f).Respelled (x'.map f) :=
  ⟨h.choices, h.result.map f, h.source⟩

namespace Grammar

variable {σ : Type} {g g' : Grammar} {x x' : Text}

/-- **A name runs alike in either spelling** of the grammar and of the name. -/
theorem Respelled.run (h : g.Respelled g') (source : Source σ) (strict : Bool)
    (levels depth : Nat) (same : Text.fold x = Text.fold x') (s : σ) :
    (g.run source strict levels depth x s).Respelled
      (g'.run source strict levels depth x' s) := by
  induction levels generalizing depth x x' s with
  | zero => exact ⟨rfl, .error (.cutOff same), rfl⟩
  | succ levels ih =>
    have halts := h.alternatives same
    cases hk : (g.alternatives x).length with
    | zero =>
      have ha := List.length_eq_zero_iff.1 hk
      have ha' := List.length_eq_zero_iff.1 (halts.length_eq.symm.trans hk)
      cases strict with
      | true =>
        rw [run_strict_of_undefined source ha, run_strict_of_undefined source ha']
        exact ⟨rfl, .error (.refused same), rfl⟩
      | false =>
        rw [run_lenient_of_undefined source ha, run_lenient_of_undefined source ha']
        exact ⟨rfl, .ok [], rfl⟩
    | succ k =>
      have hk' := halts.length_eq.symm.trans hk
      -- both sources are asked for one of as many, so they draw the same
      let drawn := source.draw k s
      have hdrawn := halts.get (drawn.1.cast hk.symm).isLt (drawn.1.cast hk'.symm).isLt
      have hrest := Run.Respelled.ofBody (fun _ _ hn => ih (depth + 1) hn) hdrawn.body drawn.2
      rw [run_of_draw source strict (drawn.1.cast hk.symm) hk rfl,
        run_of_draw source strict (drawn.1.cast hk'.symm) hk' rfl]
      exact hrest.chose (congrArg (Choice.mk · drawn.1) halts.length_eq) depth x x'

/-- **A name expands alike in either spelling** of the grammar and of the
name. -/
theorem Respelled.expand (h : g.Respelled g') (source : Source σ) (settings : Settings)
    (same : Text.fold x = Text.fold x') (s : σ) :
    (g.expand source settings x s).Respelled (g'.expand source settings x' s) := by
  have hrun := h.run source settings.strict settings.levels 0 same s
  exact ⟨hrun.choices, (hrun.outcome.mapError fun _ _ => settings.errorOf_respelled).map rawText,
    hrun.source⟩

/-- **Spelling does not matter.** Take entries in another spelling: as many,
with the same names up to case folding, and with tokens that are the same, or
of which one is in brackets and which have the same case folding. Tokens so
related are references or terminals alike. The entries make a grammar in both
spellings, or in neither, and then for want of a start. Two grammars so made
expand a name alike, whichever way it is spelled: with the same choices, and
with the same text or errors that differ in the spelling of a name. So they
do their sentences. A sentence is the expansion of `<start>`, the one spelling
that is always at hand, with its punctuation fixed and then the blanks at its
ends trimmed. -/
theorem expand_of_respelled {entries entries' : List Entry}
    (respelled : List.Forall₂ Entry.Respelled entries entries') :
    (∀ t t', Text.Respelled t t' → isReference t = isReference t')
    ∧ ((∃ g g', (ofEntries entries).result = .ok g ∧ (ofEntries entries').result = .ok g'
        ∧ ∀ (σ : Type) (source : Source σ) (settings : Settings) (s : σ),
          (∀ x x', Text.fold x = Text.fold x' →
            (g.expand source settings x s).Respelled (g'.expand source settings x' s))
          ∧ (g.sentence source settings s).Respelled (g'.sentence source settings s)
          ∧ (g.sentence source settings s).Respelled
            ((g.expand source settings startName s).map fun raw => Text.trim (Punctuation.fix raw)))
      ∨ ((ofEntries entries).result = .error (.grammar (.noStart startName))
        ∧ (ofEntries entries').result = .error (.grammar (.noStart startName)))) := by
  refine ⟨fun _ _ => isReference_eq_of_respelled, ?_⟩
  rcases respelled_of_ofEntries respelled with ⟨g, g', built, built', h⟩ | hnone
  · refine .inl ⟨g, g', built, built', fun σ source settings s => ⟨?_, ?_, ?_⟩⟩
    · exact fun x x' same => h.expand source settings same s
    · exact (h.expand source settings h.start s).map sentenceOfRaw
    · -- a sentence expands the start as the entries write it
      have hstart := fold_start_of_ofEntries built
      exact ((Respelled.refl g).expand source settings hstart s).map sentenceOfRaw
  · exact .inr hnone

/-- Names whose case folding is longer than they are, and one that opens with a
ligature: the grammars are the same but for the spelling, down to the name
that a strict expansion refuses. A lenient sentence passes over that name, has
the comma and the full stop closed up, and loses the space at its end. -/
theorem expand_of_respelled_of_ligature :
    let entries := [["<START>".toList, "die <Straße> , END .".toList],
      ["<straße>".toList, "a <Weg>".toList, "<start>".toList]]
    let entries' := [["<ﬅart>".toList, "die <STRASSE> , END .".toList],
      ["<STRASSE>".toList, "a <WEG>".toList, "<Start>".toList]]
    List.Forall₂ Entry.Respelled entries entries'
      ∧ ∃ g g', (ofEntries entries).result = .ok g ∧ (ofEntries entries').result = .ok g'
        ∧ (g'.expand Random.Chooser.source { strict := true } "<STRASSE>".toList .first).result
          = .error (.grammar (.undefined "<WEG>".toList))
        ∧ (g.expand Random.Chooser.source { strict := true } "<straße>".toList .first).Respelled
          (g'.expand Random.Chooser.source { strict := true } "<STRASSE>".toList .first)
        ∧ (g.expand Random.Chooser.source {} startName .first).result
          = .ok "die a , END . ".toList
        ∧ (g.sentence Random.Chooser.source {} .first).Respelled
          ((g.expand Random.Chooser.source {} startName .first).map
            fun raw => Text.trim (Punctuation.fix raw))
        ∧ (g.sentence Random.Chooser.source {} .first).Respelled
          (g'.sentence Random.Chooser.source {} .first)
        ∧ (g'.sentence Random.Chooser.source {} .first).result = .ok "die a, END.".toList := by
  intro entries entries'
  have respelled : List.Forall₂ Entry.Respelled entries entries' := by decide
  have made : (ofEntries entries).result
      = .ok (ofDefinitions [⟨"<START>".toList, ["die <Straße> , END .".toList]⟩,
        ⟨"<straße>".toList, ["a <Weg>".toList, "<start>".toList]⟩]) := by rfl
  have made' : (ofEntries entries').result
      = .ok (ofDefinitions [⟨"<ﬅart>".toList, ["die <STRASSE> , END .".toList]⟩,
        ⟨"<STRASSE>".toList, ["a <WEG>".toList, "<Start>".toList]⟩]) := by rfl
  rcases (expand_of_respelled respelled).2 with ⟨g, g', built, built', halike⟩ | ⟨hnone, -⟩
  · have hexpand := (halike _ Random.Chooser.source { strict := true } .first).1
      "<straße>".toList "<STRASSE>".toList (by decide)
    obtain ⟨-, hsentence, hfixed⟩ := halike _ Random.Chooser.source {} .first
    obtain rfl := Except.ok.inj (made.symm.trans built)
    obtain rfl := Except.ok.inj (made'.symm.trans built')
    exact ⟨respelled, _, _, built, built', by rfl, hexpand, by rfl, hfixed, hsentence, by rfl⟩
  · exact nomatch hnone

end Grammar

end SentenceForge

import Mathlib.Logic.Function.Basic
import SentenceForge.Proofs.Expansion.Run

/-!
# What a source decides

An expansion learns nothing of its source but the indices it answers with. Two
sources, of whatever memory, that answer alike therefore lead to the same run:
the questions that an expansion puts are decided by the answers to the questions
before, and so is whether there is a next one (`Grammar.run_same`). Hence the
indices of a run say where it ends. No run goes on from where another one was
through, and a script of the indices replays it, whether it was stopped or not.

That answers are alike is asked only as far as the questions are
(`ChoicesAgree`). Behind a question that differs nothing is known, but for runs
of one name there is none. This is what lets the two ways of knowing answers
meet: indices that are the same, and answers of one source.
-/

namespace SentenceForge

/-! ## Choices that agree -/

/-- **Choices that agree**: to the same questions in a row the same is answered.
Nothing is said of what is behind two questions that differ, or behind the last
question of either. -/
def ChoicesAgree : List Choice → List Choice → Prop
  | c :: cs, c' :: cs' => c.candidates = c'.candidates → c.index = c'.index ∧ ChoicesAgree cs cs'
  | [], _ => True
  | _ :: _, [] => True

/-- Choices agree if their indices are the same wherever both have one. -/
theorem choicesAgree_of_indices {cs cs' : List Choice}
    (h : ∀ (i a b : Nat), (cs.map Choice.index)[i]? = some a → (cs'.map Choice.index)[i]? = some b →
      a = b) : ChoicesAgree cs cs' := by
  induction cs generalizing cs' with
  | nil => trivial
  | cons c cs ih =>
    cases cs' with
    | nil => trivial
    | cons c' cs' => exact fun _ => ⟨h 0 _ _ rfl rfl, ih fun i a b ha hb => h (i + 1) a b ha hb⟩

/-- **The answers of a source from one state of its memory agree.** -/
theorem Source.Answers.choicesAgree {σ : Type} {source : Source σ} {s t t' : σ}
    {cs cs' : List Choice} (h : source.Answers s cs t) (h' : source.Answers s cs' t') :
    ChoicesAgree cs cs' := by
  induction h generalizing cs' with
  | nothing => trivial
  | next _ ih =>
    cases h' with
    | nothing => trivial
    | next rest =>
      intro hcandidates
      obtain rfl := Nat.succ.inj hcandidates
      exact ⟨rfl, ih rest⟩

/-- A source answers with one of the candidates. -/
theorem Source.Answers.valid {σ : Type} {source : Source σ} {s t : σ} {cs : List Choice}
    (h : source.Answers s cs t) : ∀ c ∈ cs, c.Valid := by
  induction h with
  | nothing => exact fun _ hc => nomatch hc
  | next _ ih => exact List.forall_mem_cons.2 ⟨Fin.isLt _, ih⟩

/-- Behind choices that are the same choices agree as before. -/
theorem ChoicesAgree.of_append {cs ds ds' : List Choice} (h : ChoicesAgree (cs ++ ds) (cs ++ ds')) :
    ChoicesAgree ds ds' := by
  induction cs with
  | nil => exact h
  | cons c cs ih => exact ih (h rfl).2

/-! ## Runs that are the same -/

namespace Run

variable {σ τ : Type} {r : Run σ} {r' : Run τ}

/-- **The same run**, whatever its source remembers: the same names are reached,
the same happens there, and it comes to the same. -/
structure Same (r : Run σ) (r' : Run τ) : Prop where
  /-- The names reached are the same. -/
  visits : r.visits = r'.visits
  /-- The outcome is. -/
  outcome : r.outcome = r'.outcome

/-- The choices of the same run are the same. -/
theorem Same.choices (h : r.Same r') : r.choices = r'.choices :=
  congrArg (List.filterMap Visit.choice?) h.visits

/-- So are its notices. -/
theorem Same.notices (h : r.Same r') : r.notices = r'.notices :=
  congrArg (List.filterMap Visit.notice?) h.visits

/-- A terminal in front is the same in both. -/
theorem Same.said (t : Text) (h : r.Same r') : (r.said t).Same (r'.said t) :=
  ⟨h.visits, congrArg (Except.map (t :: ·)) h.outcome⟩

/-- Runs in a row begin with the choices of the first. -/
theorem exists_choices_andThen (r : Run σ) (next : σ → Run σ) :
    ∃ cs, (r.andThen next).choices = r.choices ++ cs := by
  cases h : r.outcome with
  | error e => exact ⟨[], by rw [andThen_of_error h, List.append_nil]⟩
  | ok ts => exact ⟨_, by rw [andThen_of_ok h, choices, List.filterMap_append, choices]⟩

/-- **Runs in a row are the same** if the first ones are, and the second ones are
in case there are any. -/
theorem Same.andThen {next : σ → Run σ} {next' : τ → Run τ} {cs cs' : List Choice}
    (h : r.Same r')
    (hagree : ChoicesAgree ((r.andThen next).choices ++ cs) ((r'.andThen next').choices ++ cs'))
    (hnext : ChoicesAgree ((next r.source).choices ++ cs) ((next' r'.source).choices ++ cs') →
      (next r.source).Same (next' r'.source)) :
    (r.andThen next).Same (r'.andThen next') := by
  cases hr : r.outcome with
  | error e =>
    rw [andThen_of_error hr, andThen_of_error (h.outcome.symm.trans hr)]
    exact h
  | ok ts =>
    have hr' := h.outcome.symm.trans hr
    have happend : ∀ {ρ : Type} (v : List Visit) (x : Run ρ) (o : Except Stop (List Text)) (m : ρ),
        (⟨v ++ x.visits, o, m⟩ : Run ρ).choices = v.filterMap Visit.choice? ++ x.choices :=
      fun v x _ _ => List.filterMap_append
    rw [andThen_of_ok hr, andThen_of_ok hr'] at hagree ⊢
    rw [happend, happend, ← h.visits, List.append_assoc, List.append_assoc] at hagree
    obtain ⟨hvisits, houtcome⟩ := hnext hagree.of_append
    exact ⟨congrArg₂ (· ++ ·) h.visits hvisits, congrArg (Except.map (ts ++ ·)) houtcome⟩

/-- **A body is run the same way** by sources whose answers agree, if its
references are. The choices `cs` and `cs'` are those behind the body. -/
theorem same_ofBody {expand : Text → σ → Run σ} {expand' : Text → τ → Run τ}
    (h : ∀ name s s' cs cs',
      ChoicesAgree ((expand name s).choices ++ cs) ((expand' name s').choices ++ cs') →
      (expand name s).Same (expand' name s'))
    (body : List Symbol) (s : σ) (s' : τ) (cs cs' : List Choice)
    (hagree : ChoicesAgree ((ofBody expand body s).choices ++ cs)
      ((ofBody expand' body s').choices ++ cs')) :
    (ofBody expand body s).Same (ofBody expand' body s') := by
  induction body generalizing s s' with
  | nil => exact ⟨rfl, rfl⟩
  | cons x body ih =>
    cases x with
    | terminal t => exact (ih s s' hagree).said t
    | reference name =>
      have hfirst : (expand name s).Same (expand' name s') := by
        obtain ⟨ds, hds⟩ := exists_choices_andThen (expand name s) (ofBody expand body)
        obtain ⟨ds', hds'⟩ := exists_choices_andThen (expand' name s') (ofBody expand' body)
        rw [ofBody, ofBody, hds, hds', List.append_assoc, List.append_assoc] at hagree
        exact h name s s' _ _ hagree
      exact hfirst.andThen hagree (ih _ _)

end Run

/-! ## Expansions -/

/-- **The same generation**, whatever its source remembers. -/
structure Generation.Same {σ τ α : Type} (x : Generation σ α) (x' : Generation τ α) : Prop where
  /-- The choices are the same: as many, of as many candidates, at the same
  indices. -/
  choices : x.choices = x'.choices
  /-- The notices are. -/
  notices : x.notices = x'.notices
  /-- The result or the error is. -/
  result : x.result = x'.result

/-- The indices that were chosen, in order. -/
def Generation.indices {σ α : Type} (x : Generation σ α) : List Nat := x.choices.map Choice.index

namespace Grammar

variable {σ τ : Type}

/-- **The run of a name is decided by the answers of its source.** The choices `cs`
and `cs'` are those behind the run: that they agree as well does not help, and
that they follow at all is what makes the end of a run its own. -/
theorem run_same (g : Grammar) (source : Source σ) (source' : Source τ) (strict : Bool)
    (levels depth : Nat) (name : Text) (s : σ) (s' : τ) (cs cs' : List Choice)
    (hagree : ChoicesAgree ((g.run source strict levels depth name s).choices ++ cs)
      ((g.run source' strict levels depth name s').choices ++ cs')) :
    (g.run source strict levels depth name s).Same (g.run source' strict levels depth name s') := by
  induction levels generalizing depth name s s' cs cs' with
  | zero => exact ⟨rfl, rfl⟩
  | succ levels ih =>
    cases ha : g.alternatives name with
    | nil =>
      cases strict with
      | true =>
        rw [run_strict_of_undefined source ha, run_strict_of_undefined source' ha]
        exact ⟨rfl, rfl⟩
      | false =>
        rw [run_lenient_of_undefined source ha, run_lenient_of_undefined source' ha]
        exact ⟨rfl, rfl⟩
    | cons p ps =>
      rw [run_of_defined source strict ha, run_of_defined source' strict ha] at hagree ⊢
      -- both are asked for one of as many, so they take the same alternative
      obtain ⟨hindex, hrest⟩ := hagree rfl
      have hdrawn := Fin.ext hindex
      dsimp only at hrest ⊢
      rw [hdrawn] at hrest ⊢
      obtain ⟨hvisits, houtcome⟩ := Run.same_ofBody (ih (depth + 1)) _ _ _ cs cs' hrest
      exact ⟨congrArg _ hvisits, houtcome⟩

/-- An expansion is decided by the answers of its source. -/
theorem expand_same (g : Grammar) (source : Source σ) (source' : Source τ) (settings : Settings)
    (name : Text) (s : σ) (s' : τ)
    (hagree : ChoicesAgree (g.expand source settings name s).choices
      (g.expand source' settings name s').choices) :
    (g.expand source settings name s).Same (g.expand source' settings name s') := by
  rw [← List.append_nil (g.expand source settings name s).choices,
    ← List.append_nil (g.expand source' settings name s').choices] at hagree
  have h := g.run_same source source' settings.strict settings.levels 0 name s s' [] [] hagree
  exact ⟨h.choices, h.notices,
    congrArg (fun o => (Except.mapError settings.errorOf o).map rawText) h.outcome⟩

/-- The choices of an expansion are answers of its source. -/
theorem answers_expand (g : Grammar) (source : Source σ) (settings : Settings) (name : Text)
    (s : σ) : source.Answers s (g.expand source settings name s).choices
      (g.expand source settings name s).source :=
  g.answers_run source settings.strict settings.levels 0 name s

/-- **A script of its indices replays an expansion**, whatever the expansion came
to. -/
theorem expand_ofScript_same (g : Grammar) (source : Source σ) (settings : Settings) (name : Text)
    (s : σ) :
    (g.expand Random.Chooser.source settings name
        (.ofScript ((g.expand source settings name s).choices.map fun c => (c.index : Int)))).Same
      (g.expand source settings name s) := by
  have hscript := Random.Chooser.answers_script
    (g.answers_expand source settings name s).valid []
  exact g.expand_same _ source settings name _ s
    ((g.answers_expand Random.Chooser.source settings name _).choicesAgree hscript)

/-- **An expansion is decided by its indices, and these end by themselves.** Two
expansions of a name, with any two sources, whose indices agree as far as both go
are the same expansion; so the indices of none begin those of another and go on.
And a script of the indices of an expansion, finished or stopped, is a source for
the same expansion. -/
theorem expand_of_indices_agree (g : Grammar) (source : Source σ) (source' : Source τ)
    (settings : Settings) (name : Text) (s : σ) (s' : τ) :
    let x := g.expand source settings name s
    let x' := g.expand source' settings name s'
    ((∀ (i a b : Nat), x.indices[i]? = some a → x'.indices[i]? = some b → a = b) → x.Same x')
    ∧ (x.indices <+: x'.indices → x.indices = x'.indices)
    ∧ (g.expand Random.Chooser.source settings name
        (.ofScript (x.indices.map Int.ofNat))).Same x := by
  intro x x'
  have hsame (h : ∀ (i a b : Nat), x.indices[i]? = some a → x'.indices[i]? = some b → a = b) :
      x.Same x' :=
    g.expand_same source source' settings name s s' (choicesAgree_of_indices h)
  refine ⟨hsame, ?_, ?_⟩
  · rintro ⟨is, his⟩
    have hchoices := (hsame fun i a b ha hb => ?_).choices
    · exact congrArg (List.map Choice.index) hchoices
    -- where the shorter one has an index, the longer one has the same
    · rw [← his, List.getElem?_append_left (List.getElem?_eq_some_iff.1 ha).1, ha] at hb
      exact Option.some.inj hb
  · rw [Generation.indices, List.map_map]
    exact g.expand_ofScript_same source settings name s

/-- A source that remembers a number and reads off its digits, each in the base of
its question. -/
def digits : Source Nat :=
  ⟨fun k n => (⟨n % (k + 1), Nat.mod_lt n (Nat.succ_pos k)⟩, n / (k + 1))⟩

/-- A script and a number that answer alike: both pass over an undefined name and
are cut off after three choices of two, three and two. -/
theorem expand_of_indices_agree_of_digits :
    let g := ofProductions startName
      [.ofText startName "a <mid> <start>".toList, .ofText startName "b".toList,
        .ofText "<mid>".toList "c".toList, .ofText "<mid>".toList "d <gone> <start>".toList,
        .ofText "<mid>".toList "e".toList]
    let x := g.expand digits { maxDepth := some 3 } startName 2
    let x' := g.expand Random.Chooser.source { maxDepth := some 3 } startName
      (.ofScript [4, -2, 0, 1])
    (∀ (i a b : Nat), x.indices[i]? = some a → x'.indices[i]? = some b → a = b)
      ∧ x.Same x'
      ∧ x.indices <+: x'.indices
      ∧ x.indices = x'.indices
      ∧ (g.expand Random.Chooser.source { maxDepth := some 3 } startName
          (.ofScript (x.indices.map Int.ofNat))).Same x
      ∧ x.choices = [⟨2, 0⟩, ⟨3, 1⟩, ⟨2, 0⟩]
      ∧ x.notices = [.skipped "<gone>".toList]
      ∧ x.result = .error (.grammar (.tooDeep "<mid>".toList 3)) := by
  intro g x x'
  have hindices : x.indices = x'.indices := by rfl
  have hagree (i a b : Nat) (ha : x.indices[i]? = some a) (hb : x'.indices[i]? = some b) :
      a = b := Option.some.inj (ha.symm.trans (hindices ▸ hb))
  obtain ⟨hsame, hprefix, hreplay⟩ := g.expand_of_indices_agree digits Random.Chooser.source
    { maxDepth := some 3 } startName 2 (.ofScript [4, -2, 0, 1])
  exact ⟨hagree, hsame hagree, hindices ▸ List.prefix_rfl, hprefix (hindices ▸ List.prefix_rfl),
    hreplay, by rfl, by rfl, by rfl⟩

end Grammar

end SentenceForge

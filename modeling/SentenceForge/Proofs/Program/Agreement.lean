import SentenceForge.Proofs.Program.InStep
import SentenceForge.Random.Chooser

/-!
# The two programs agree

Given the same grammar and the same source, the two programs print and
build the same sentences and are stopped by the same error. What differs is
what they make of an error: the one reports some and fails, the other lets
all of them through. `Agreement` relates them by what can be seen from
outside: what they write, how they end, and the files they leave.

Programs in step agree (`Agreement.of_inStep`), and so do programs that are
stopped for want of an option, which neither of them reports.
-/

namespace SentenceForge

open Output

variable {σ : Type}

/-! ## How the programs end -/

/-- A missing option is never reported. -/
theorem report?_valueless (grammar : Given Text) (need : Need) :
    Sentences.report? grammar (.valueless need) = none := by
  cases grammar <;> rfl

/-- A report is no output of the first stream. -/
theorem stdout_of_report? {grammar : Given Text} {e : Error} {lines : List Output}
    (h : Sentences.report? grammar e = some lines) : stdout lines = [] := by
  unfold Sentences.report? at h
  split at h
  · obtain rfl := Option.some.inj h
    rfl
  · obtain rfl := Option.some.inj h
    exact stdout_ofNotices _ _
  · cases h

/-- **How the sentence program ends** with what it has printed. -/
def Sentences.ended (grammar : Given Text) (x : Performance σ Unit) : List Output × Ending :=
  match x.result with
  | .ok () => (x.outputs, .status 0)
  | .error e =>
    match report? grammar e with
    | some lines => (x.outputs ++ lines, .status 1)
    | none => (x.outputs, .escaped e)

/-- With an error it ends by whether that is reported. -/
theorem Sentences.ended_of_error {grammar : Given Text} {x : Performance σ Unit} {e : Error}
    (h : x.result = .error e) :
    ended grammar x
      = match report? grammar e with
        | some lines => (x.outputs ++ lines, .status 1)
        | none => (x.outputs, .escaped e) := by
  rw [ended, h]

/-- **How the corpus program ends** with what it has built. -/
def CorpusBuilder.ended (x : CorpusRun σ) : Ending × FileTree :=
  match x.generation.result with
  | .ok _ => (.status 0, x.files)
  | .error e => (.escaped e, x.files)

section Run

variable (files : FileTree) {o : Sentences.Options} (source : Source σ)
  (seeded : Option Int → σ) {grammar : Given Text} {seed : Option Int}
  (hseed : Given.get? o.seed .seed = .ok seed)

include hseed

/-- The sentence program prints and ends. -/
theorem Sentences.run_eq_ended (hgrammar : o.grammar = some grammar) (input : Text) :
    run files o source seeded input
      = ended grammar (print files o source grammar (seeded seed)) := by
  unfold run perform ended
  rw [hseed, hgrammar]
  dsimp only
  cases hresult : (print files o source grammar (seeded seed)).result with
  | ok u => rfl
  | error e =>
    dsimp only
    cases report? grammar e <;> rfl

/-- The corpus program builds and ends. -/
theorem CorpusBuilder.run_eq_ended {name directory path : Text}
    (hdir : o.directory = .value directory) :
    (run files (o.toCorpus (.value name) path) source seeded).2
      = ended (build files (o.toCorpus (.value name) path) (grammarPath name directory) source
        (seeded seed)) := by
  have hgrammar' : (o.toCorpus (.value name) path).grammar = .value name := rfl
  have hdir' : (o.toCorpus (.value name) path).directory = .value directory := hdir
  have hseed' : Given.get? (o.toCorpus (.value name) path).seed .seed = .ok seed := hseed
  unfold run ended
  rw [hgrammar', hdir', hseed', Given.get_value, Given.get_value]
  dsimp only
  cases hresult : (build files (o.toCorpus (.value name) path) (grammarPath name directory)
    source (seeded seed)).generation.result with
  | ok size => rfl
  | error e => rfl

end Run

/-- **The two programs agree**, by what they write, how they end and the files
they leave. An error that the sentence program reports is one that the corpus
program lets through. -/
structure Agreement (files : FileTree) (grammar directory : Given Text) (size : Int)
    (path : Text) (printed : List Output × Ending) (built : List Output × Ending × FileTree) :
    Prop where
  /-- The one prints sentences between rules and is done exactly if the other
  writes them to its file and is done. -/
  done_iff : ∀ sentences,
    (printed.2 = .status 0 ∧ stdout printed.1
        = Sentences.ruleLine ++ (corpusText sentences ++ Sentences.ruleLine))
      ↔ (built.2.1 = .status 0
        ∧ built.2.2.find? path = some (.file (Utf8.encode (corpusText sentences))))
  /-- There are then as many sentences as were asked for. -/
  complete : printed.2 = .status 0 → ∃ sentences : List Text, (sentences.length : Int) = size
    ∧ stdout printed.1 = Sentences.ruleLine ++ (corpusText sentences ++ Sentences.ruleLine)
  /-- The one fails exactly if the other lets an error through that is
  reported. -/
  failed_iff : printed.2 = .status 1
    ↔ ∃ e lines, Sentences.report? grammar e = some lines ∧ built.2.1 = .escaped e
  /-- That error is the one reported, after the sentences that are in the
  file. If it is that there is no grammar there are none, and no file was
  touched. -/
  reported : ∀ e lines, Sentences.report? grammar e = some lines → built.2.1 = .escaped e →
    (∃ before, printed.1 = before ++ lines)
      ∧ ∃ sentences, stdout printed.1 = Sentences.ruleLine ++ corpusText sentences
        ∧ (∀ e', loaded files grammar directory = .error e' →
          e' = e ∧ sentences = [] ∧ built.2.2 = files)
        ∧ ∀ g, loaded files grammar directory = .ok g →
          built.2.2.find? path = some (.file (Utf8.encode (corpusText sentences)))

namespace Agreement

variable {files : FileTree} {grammar directory : Given Text} {size : Int} {path : Text}
  {printed : List Output × Ending} {built : List Output × Ending × FileTree}

/-- Programs that let errors through of which none is reported agree. -/
theorem of_escaped {e e' : Error} (hprinted : printed.2 = .escaped e)
    (hbuilt : built.2.1 = .escaped e') (h : Sentences.report? grammar e' = none) :
    Agreement files grammar directory size path printed built where
  done_iff sentences := by simp [hprinted, hbuilt]
  complete hdone := nomatch hprinted.symm.trans hdone
  failed_iff := by simp [hprinted, hbuilt, h]
  reported e'' lines hlines he'' := by
    obtain rfl := Ending.escaped.inj (hbuilt.symm.trans he'')
    exact nomatch h.symm.trans hlines

variable {x : Performance σ Unit} {y : CorpusRun σ} {sentences : List Text}

/-- **Programs in step that are done agree.** -/
theorem of_done
    (h : InStep files path size (loaded files grammar directory) x y sentences (.ok ()))
    (hprinted : printed = Sentences.ended grammar x) (hbuilt : built.2 = CorpusBuilder.ended y) :
    Agreement files grammar directory size path printed built := by
  have hprinted' : printed = (x.outputs, .status 0) := by
    rw [hprinted, Sentences.ended, h.printed_result]
  have hbuilt' : built.2 = (.status 0, y.files) := by
    rw [hbuilt, CorpusBuilder.ended, h.built_result]
    rfl
  -- there was a grammar, as without one there would be an error
  have hfile : y.files.find? path = some (.file (Utf8.encode (corpusText sentences))) := by
    cases hload : loaded files grammar directory with
    | error e => exact nomatch (h.untouched e hload).1
    | ok g => exact h.written g hload
  have htext : stdout x.outputs
      = Sentences.ruleLine ++ (corpusText sentences ++ Sentences.ruleLine) := h.printed_text
  rw [hprinted']
  refine ⟨fun sentences' => ?_, fun _ => ⟨sentences, h.complete rfl, htext⟩, ?_, ?_⟩
  · rw [hbuilt', htext, hfile]
    constructor
    · rintro ⟨-, htexts⟩
      have hsame := List.append_cancel_right (List.append_cancel_left htexts)
      exact ⟨rfl, by rw [hsame]⟩
    · rintro ⟨-, hbytes⟩
      have hsame := Utf8.encode_injective (FileNode.file.inj (Option.some.inj hbytes))
      exact ⟨rfl, by rw [hsame]⟩
  · simp [hbuilt']
  · intro e lines _ he
    rw [hbuilt'] at he
    cases he

/-- **Programs in step that are stopped agree.** -/
theorem of_stopped {e : Error}
    (h : InStep files path size (loaded files grammar directory) x y sentences (.error e))
    (hprinted : printed = Sentences.ended grammar x) (hbuilt : built.2 = CorpusBuilder.ended y) :
    Agreement files grammar directory size path printed built := by
  have hbuilt' : built.2 = (.escaped e, y.files) := by
    rw [hbuilt, CorpusBuilder.ended, h.built_result]
    rfl
  cases hreport : Sentences.report? grammar e with
  | none =>
    have hprinted' : printed = (x.outputs, .escaped e) := by
      rw [hprinted, Sentences.ended_of_error h.printed_result, hreport]
    exact of_escaped (congrArg Prod.snd hprinted') (congrArg Prod.fst hbuilt') hreport
  | some lines =>
    have hprinted' : printed = (x.outputs ++ lines, .status 1) := by
      rw [hprinted, Sentences.ended_of_error h.printed_result, hreport]
    have htext : stdout (x.outputs ++ lines) = Sentences.ruleLine ++ corpusText sentences := by
      rw [stdout_append, stdout_of_report? hreport, List.append_nil, h.printed_text]
      exact congrArg _ (List.append_nil _)
    rw [hprinted']
    refine ⟨fun _ => by simp [hbuilt'], fun hdone => (nomatch hdone), ?_, ?_⟩
    · rw [hbuilt']
      exact ⟨fun _ => ⟨e, lines, hreport, rfl⟩, fun _ => rfl⟩
    · intro e' lines' hlines he
      rw [hbuilt'] at he ⊢
      obtain rfl := Ending.escaped.inj he
      obtain rfl := Option.some.inj (hreport.symm.trans hlines)
      refine ⟨⟨x.outputs, rfl⟩, sentences, htext, fun e' he' => ?_, h.written⟩
      obtain ⟨hsame, hnone, hfiles⟩ := h.untouched e' he'
      exact ⟨(Except.error.inj hsame).symm, hnone, hfiles⟩

/-- **Programs in step agree.** -/
theorem of_inStep {result : Except Error Unit}
    (h : InStep files path size (loaded files grammar directory) x y sentences result)
    (hprinted : printed = Sentences.ended grammar x) (hbuilt : built.2 = CorpusBuilder.ended y) :
    Agreement files grammar directory size path printed built := by
  cases result with
  | ok u => exact of_done h hprinted hbuilt
  | error e => exact of_stopped h hprinted hbuilt

end Agreement

/-! ## Missing options -/

/-- Asking for an option fails only because it is void. -/
theorem Given.eq_valueless_of_get? {α : Type} {x : Option (Given α)} {need : Need} {e : Error}
    (h : get? x need = .error e) : e = .valueless need := by
  cases x with
  | none => cases h
  | some x =>
    cases x with
    | value a => cases h
    | void => exact (Except.error.inj h).symm

section Missing

variable (files : FileTree) {o : Sentences.Options} (source : Source σ)
  (seeded : Option Int → σ) {grammar : Given Text}

/-- The corpus program is stopped if the grammar, its directory or the seed is
missing. -/
theorem CorpusBuilder.run_of_missing
    (h : grammar = .void ∨ o.directory = .void ∨ ∃ e, Given.get? o.seed .seed = .error e)
    (path : Text) :
    ∃ need, (run files (o.toCorpus grammar path) source seeded).2.1
      = .escaped (.valueless need) := by
  cases grammar with
  | void => exact ⟨_, rfl⟩
  | value name =>
    unfold run Sentences.Options.toCorpus
    cases hdir : o.directory with
    | void => exact ⟨_, rfl⟩
    | value directory =>
      rcases h with h | h | ⟨e, h⟩
      · cases h
      · exact nomatch h.symm.trans hdir
      · obtain rfl := Given.eq_valueless_of_get? h
        dsimp only [Given.get_value]
        rw [h]
        exact ⟨_, rfl⟩

/-- The sentence program is stopped by a missing seed. -/
theorem Sentences.run_of_missing_seed {e : Error} (h : Given.get? o.seed .seed = .error e)
    (input : Text) : (run files o source seeded input).2 = .escaped e := by
  unfold run
  rw [h]

/-- It is stopped by a missing grammar or directory after the first rule. -/
theorem Sentences.run_of_missing {size : Int} (hgrammar : o.grammar = some grammar)
    (hsize : o.size = .value size) (hpos : 1 ≤ size) (h : grammar = .void ∨ o.directory = .void)
    {seed : Option Int} (hseed : Given.get? o.seed .seed = .ok seed) (input : Text) :
    ∃ need, (run files o source seeded input).2 = .escaped (.valueless need) := by
  obtain ⟨need, hload⟩ : ∃ need, loaded files grammar o.directory = .error (.valueless need) := by
    rcases h with rfl | h
    · exact ⟨_, rfl⟩
    · rw [h]
      cases grammar <;> exact ⟨_, rfl⟩
  obtain ⟨hresult, -⟩ := print_of_error source hsize hpos
    (sentence_of_not_loaded source hload (seeded seed))
  refine ⟨need, ?_⟩
  rw [run_eq_ended files source seeded hseed hgrammar, ended_of_error hresult, report?_valueless]

end Missing

/-! ## The programs agree -/

/-- **The two programs agree.** Whatever the file tree and the options, asked
for at least one sentence and for a file that can be written: the sentence
program prints sentences between rules and is done exactly if the corpus
program writes them to its file and is done, and it fails exactly if the
other one lets an error through that it would report, with the same sentences
before that. -/
theorem agreement_of_canWrite {files : FileTree} {o : Sentences.Options} {grammar : Given Text}
    {size : Int} {path : Text} (hgrammar : o.grammar = some grammar) (hstrict : o.strict = false)
    (hsize : o.size = .value size) (hpos : 1 ≤ size) (hpath : files.CanWrite path)
    (source : Source σ) (seeded : Option Int → σ) (input : Text) :
    Agreement files grammar o.directory size path (Sentences.run files o source seeded input)
      (CorpusBuilder.run files (o.toCorpus grammar path) source seeded) := by
  cases hseed : Given.get? o.seed .seed with
  | error e =>
    have hprinted := Sentences.run_of_missing_seed files source seeded hseed input
    obtain ⟨need, hbuilt⟩ := CorpusBuilder.run_of_missing files source seeded
      (.inr (.inr ⟨e, hseed⟩) : grammar = .void ∨ _) path
    exact .of_escaped hprinted hbuilt (report?_valueless _ _)
  | ok seed =>
    have hmissing : grammar = .void ∨ o.directory = .void →
        Agreement files grammar o.directory size path (Sentences.run files o source seeded input)
          (CorpusBuilder.run files (o.toCorpus grammar path) source seeded) := by
      intro h
      obtain ⟨need, hprinted⟩ := Sentences.run_of_missing files source seeded hgrammar hsize hpos h
        hseed input
      obtain ⟨need', hbuilt⟩ := CorpusBuilder.run_of_missing files source seeded
        (h.imp_right .inl) path
      exact .of_escaped hprinted hbuilt (report?_valueless _ _)
    cases grammar with
    | void => exact hmissing (.inl rfl)
    | value name =>
      cases hdir : o.directory with
      | void => exact hdir ▸ hmissing (.inr hdir)
      | value directory =>
        rw [← hdir]
        obtain ⟨sentences, result, hstep⟩ :=
          exists_inStep source name hsize hpos hdir hpath hstrict (seeded seed)
        exact .of_inStep hstep (Sentences.run_eq_ended files source seeded hseed hgrammar input)
          (CorpusBuilder.run_eq_ended files source seeded hseed hdir)

/-- Two sentences of a grammar that need not end, of which the second is cut
off: the first is printed and in the file, whose directories were made. -/
theorem agreement_of_canWrite_of_cutOff :
    let files := FileTree.empty.plant ⟨.working 0, ["grammars".toList, "p.g".toList]⟩
      (.file (Utf8.encode "\x7b<start> a ; <start> b ;\x7d".toList))
    let o : Sentences.Options :=
      { grammar := some (.value "p".toList), size := .value 2, maxDepth := .value 2 }
    let path := "out/a/c.txt".toList
    let seeded := fun _ : Option Int => Random.Chooser.ofScript [0, 1, 1]
    files.CanWrite path
      ∧ (Sentences.run files o Random.Chooser.source seeded []).2 = .status 1
      ∧ Agreement files (.value "p".toList) o.directory 2 path
        (Sentences.run files o Random.Chooser.source seeded [])
        (CorpusBuilder.run files (o.toCorpus (.value "p".toList) path) Random.Chooser.source
          seeded) := by
  refine ⟨?writable, ?failed, agreement_of_canWrite rfl rfl rfl (by decide) ?writable _ _ _⟩
  case writable => exact ⟨rfl, ⟨.working 0, ["out".toList, "a".toList, "c.txt".toList]⟩, rfl⟩
  case failed => rfl

end SentenceForge

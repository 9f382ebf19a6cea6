import SentenceForge.Program.CorpusBuilder
import SentenceForge.Program.Sentences
import SentenceForge.Proofs.Corpus

/-!
# Printing and building in step

The sentence program reads its grammar anew for every sentence and prints
each at once; the corpus program reads it once and writes a file. The
grammar that is read for a sentence is always the same (`loaded`), so a
loop over sentences of a file is a batch of sentences of its grammar
(`Sentences.printRest_of_loaded`), which is what a corpus is.

Given the same options the two are therefore in step (`InStep`): they come
to the same sentences and the same result, whatever it is. There are three
ways for them to get there – no grammar, no limit, a batch – and all three
end in the same relation.
-/

namespace SentenceForge

open Output

variable {σ : Type}

/-! ## Reading the grammar -/

/-- **The grammar that a program is given**, if there is one that defines its
start. -/
def loaded (files : FileTree) (grammar directory : Given Text) : Except Error Grammar :=
  match grammar.get .grammarName, directory.get .path with
  | .error e, _ => .error e
  | .ok _, .error e => .error e
  | .ok name, .ok directory => (grammarOfFile files (grammarPath name directory)).result

/-- A grammar that can be had is that of a file, which the options name. -/
theorem exists_of_loaded {files : FileTree} {grammar directory : Given Text} {g : Grammar}
    (h : loaded files grammar directory = .ok g) :
    ∃ name path, grammar = .value name ∧ directory = .value path
      ∧ (grammarOfFile files (grammarPath name path)).result = .ok g := by
  cases grammar with
  | void => cases h
  | value name =>
    cases directory with
    | void => cases h
    | value path => exact ⟨name, path, rfl, rfl, h⟩

/-- With both options given it is that of the file they name. -/
theorem read_of_loaded {files : FileTree} {name path : Text} {directory : Given Text}
    {r : Except Error Grammar} (hdir : directory = .value path)
    (h : loaded files (.value name) directory = r) :
    (grammarOfFile files (grammarPath name path)).result = r := by
  rw [hdir] at h
  exact h

/-! ## Printing -/

namespace Sentences

/-- A rule on a line of its own. -/
def ruleLine : Text := rule ++ ['\n']

/-- What closes sentences: a rule, unless there was an error. -/
def closing : Except Error Unit → Text
  | .ok () => ruleLine
  | .error _ => []

section

variable {files : FileTree} {o : Options} (source : Source σ) {grammar : Given Text}

/-- No sentence is made of a grammar that cannot be had. -/
theorem sentence_of_not_loaded {e : Error} (h : loaded files grammar o.directory = .error e)
    (s : σ) : (sentence files o source grammar s).result = .error e := by
  cases grammar with
  | void =>
    obtain rfl := Except.error.inj h
    rfl
  | value name =>
    unfold sentence
    cases hdir : o.directory with
    | void =>
      rw [hdir] at h
      obtain rfl := Except.error.inj h
      rfl
    | value directory =>
      rw [hdir] at h
      have hnamed : (namedGrammar files name directory).result = .error e := h
      exact congrArg Generation.result (Generation.ofLogged_of_error hnamed s _)

/-- **Nothing is printed between the rules** if no sentence can be made. -/
theorem printRest_of_error {e : Error} {s : σ}
    (h : (sentence files o source grammar s).result = .error e) (n : Nat) :
    stdout (printRest files o source grammar (n + 1) s).outputs = []
      ∧ (printRest files o source grammar (n + 1) s).result = .error e := by
  rw [printRest]
  simp only [h]
  exact ⟨stdout_ofNotices _ _, trivial⟩

/-- A sentence that cannot be made leaves the first rule alone. -/
theorem print_of_error {size : Int} (hsize : o.size = .value size) (hpos : 1 ≤ size) {e : Error}
    {s : σ} (h : (sentence files o source grammar s).result = .error e) :
    (print files o source grammar s).result = .error e
      ∧ stdout (print files o source grammar s).outputs = ruleLine := by
  obtain ⟨n, hn⟩ : ∃ n, size.toNat = n + 1 := ⟨size.toNat - 1, by omega⟩
  obtain ⟨htext, hresult⟩ := printRest_of_error source h n
  unfold print
  rw [hsize, Given.get_value]
  dsimp only
  rw [hn, stdout_cons_line, htext]
  exact ⟨hresult, List.append_nil _⟩

variable {g : Grammar} (h : loaded files grammar o.directory = .ok g)

include h

/-- No sentence is made without a limit to its depth. -/
theorem sentence_of_unlimited (hlimit : o.maxDepth = .void) (s : σ) :
    (sentence files o source grammar s).result = .error (.valueless .depthLimit) := by
  obtain ⟨name, directory, rfl, hdir, hread⟩ := exists_of_loaded h
  have hnamed : (namedGrammar files name directory).result = .ok g := hread
  unfold sentence
  rw [hdir, hlimit]
  exact congrArg Generation.result (Generation.ofLogged_of_ok hnamed s _)

/-- **A sentence of a grammar that can be had is one of that grammar.** -/
theorem sentence_of_loaded {limit : Int} (hlimit : o.maxDepth = .value limit) (s : σ) :
    (sentence files o source grammar s).result
        = (g.sentence source { strict := o.strict, maxDepth := some limit } s).result
      ∧ (sentence files o source grammar s).source
        = (g.sentence source { strict := o.strict, maxDepth := some limit } s).source := by
  obtain ⟨name, directory, rfl, hdir, hread⟩ := exists_of_loaded h
  have hnamed : (namedGrammar files name directory).result = .ok g := hread
  unfold sentence
  rw [hdir, hlimit]
  let make := fun g : Grammar => g.sentence source { strict := o.strict, maxDepth := some limit } s
  show (Generation.ofLogged (namedGrammar files name directory) s make).result = _
    ∧ (Generation.ofLogged (namedGrammar files name directory) s make).source = _
  rw [Generation.ofLogged_of_ok hnamed]
  exact ⟨rfl, rfl⟩

/-- **Reading the grammar for every sentence makes no difference**: what is
printed is a batch of sentences of the grammar, with the closing rule if
nothing stopped it. -/
theorem printRest_of_loaded {limit : Int} (hlimit : o.maxDepth = .value limit) (n : Nat) (s : σ) :
    let batch := g.batch source { strict := o.strict, maxDepth := some limit } n s
    stdout (printRest files o source grammar n s).outputs
        = corpusText batch.sentences ++ closing batch.outcome
      ∧ (printRest files o source grammar n s).result = batch.outcome := by
  -- printing and the batch leave their source alike after a sentence, so both go on from there
  induction n generalizing s with
  | zero => exact ⟨(stdout_cons_line rule []).trans (List.append_nil _), rfl⟩
  | succ n ih =>
    obtain ⟨hresult, hsource⟩ := sentence_of_loaded source h hlimit s
    rw [printRest, Grammar.batch, hresult, hsource]
    cases hmade : (g.sentence source { strict := o.strict, maxDepth := some limit } s).result with
    | error e => exact ⟨stdout_ofNotices _ _, rfl⟩
    | ok text =>
      obtain ⟨hprinted, hrest⟩ := ih
        (g.sentence source { strict := o.strict, maxDepth := some limit } s).source
      refine ⟨?_, hrest⟩
      rw [stdout_append, stdout_ofNotices, stdout_cons_line, hprinted, List.nil_append,
        ← List.append_assoc]
      rfl

/-- **With a limit a batch of sentences is printed between rules.** -/
theorem print_of_loaded {size limit : Int} (hsize : o.size = .value size)
    (hlimit : o.maxDepth = .value limit) (s : σ) :
    let batch := g.batch source { strict := o.strict, maxDepth := some limit } size.toNat s
    (print files o source grammar s).result = batch.outcome
      ∧ stdout (print files o source grammar s).outputs
        = ruleLine ++ (corpusText batch.sentences ++ closing batch.outcome) := by
  obtain ⟨htext, hresult⟩ := printRest_of_loaded source h hlimit size.toNat s
  unfold print
  rw [hsize]
  exact ⟨hresult, congrArg (ruleLine ++ ·) htext⟩

end

end Sentences

/-! ## In step -/

/-- The options of the corpus program that ask for what options of the
sentence program ask for. -/
def Sentences.Options.toCorpus (o : Sentences.Options) (grammar : Given Text) (path : Text) :
    CorpusBuilder.Options :=
  { grammar, directory := o.directory, path := .value path, size := o.size, seed := o.seed,
    maxDepth := o.maxDepth }

/-- **The programs are in step**: printing and building have come to the same
sentences and the same result. If there was a grammar the sentences are in
the file, and otherwise no file was touched. -/
structure InStep (files : FileTree) (path : Text) (size : Int) (grammar : Except Error Grammar)
    (printed : Performance σ Unit) (built : CorpusRun σ) (sentences : List Text)
    (result : Except Error Unit) : Prop where
  /-- Printing has the result. -/
  printed_result : printed.result = result
  /-- It has printed the sentences between rules. -/
  printed_text : stdout printed.outputs
    = Sentences.ruleLine ++ (corpusText sentences ++ Sentences.closing result)
  /-- Building has the result. -/
  built_result : built.generation.result = result.map fun _ => size
  /-- There are as many sentences as were asked for, unless there was an
  error. -/
  complete : result = .ok () → (sentences.length : Int) = size
  /-- Without a grammar there are none, and no file was touched. -/
  untouched : ∀ e, grammar = .error e → result = .error e ∧ sentences = [] ∧ built.files = files
  /-- With one they are in the file. -/
  written : ∀ g, grammar = .ok g →
    built.files.find? path = some (.file (Utf8.encode (corpusText sentences)))

section Building

variable {files : FileTree} {o : Sentences.Options} (source : Source σ) (name directory : Text)
  {path : Text} {size : Int} (hsize : o.size = .value size)

include hsize

/-- With a limit a corpus of so many sentences is built. -/
theorem build_of_limited {limit : Int} (hlimit : o.maxDepth = .value limit) (s : σ) :
    CorpusBuilder.build files (o.toCorpus (.value name) path) (grammarPath name directory) source s
      = buildCorpus files (grammarPath name directory) path size source
        { maxDepth := some limit } s := by
  unfold CorpusBuilder.build Sentences.Options.toCorpus
  rw [hsize, hlimit]
  rfl

/-- Without a limit an empty one is, and then the limit is missed. -/
theorem build_of_unlimited (hpos : 1 ≤ size) (hlimit : o.maxDepth = .void) (s : σ) :
    CorpusBuilder.build files (o.toCorpus (.value name) path) (grammarPath name directory) source s
      = (buildCorpus files (grammarPath name directory) path 0 source {} s).stoppedBy
        (.valueless .depthLimit) := by
  have hmin : min size 0 = 0 := by omega
  unfold CorpusBuilder.build Sentences.Options.toCorpus
  rw [hsize, hlimit]
  show (if 0 < size then
    (buildCorpus files (grammarPath name directory) path (min size 0) source {} s).stoppedBy _
    else _) = _
  rw [if_pos (by omega), hmin]

/-- Without a grammar nothing is built and no file is touched. -/
theorem build_of_not_read (hpos : 1 ≤ size) {e : Error}
    (h : (grammarOfFile files (grammarPath name directory)).result = .error e) (s : σ) :
    let built := CorpusBuilder.build files (o.toCorpus (.value name) path)
      (grammarPath name directory) source s
    built.generation.result = .error e ∧ built.files = files := by
  intro built
  cases hlimit : o.maxDepth with
  | value limit =>
    rw [show built = _ from build_of_limited source name directory hsize hlimit s]
    exact buildCorpus_of_not_read path size source _ s h
  | void =>
    rw [show built = _ from build_of_unlimited source name directory hsize hpos hlimit s]
    obtain ⟨hresult, hfiles⟩ := buildCorpus_of_not_read path 0 source {} s h
    rw [CorpusRun.result_stoppedBy, CorpusRun.files_stoppedBy, hresult]
    exact ⟨rfl, hfiles⟩

end Building

section InStep

variable {files : FileTree} {o : Sentences.Options} (source : Source σ) (name : Text)
  {directory path : Text} {size : Int} (hsize : o.size = .value size) (hpos : 1 ≤ size)
  (hdir : o.directory = .value directory)

include hsize hpos hdir

/-- **Without a grammar both are stopped at once.** -/
theorem inStep_of_not_loaded {e : Error} (h : loaded files (.value name) o.directory = .error e)
    (s : σ) :
    InStep files path size (loaded files (.value name) o.directory)
      (Sentences.print files o source (.value name) s)
      (CorpusBuilder.build files (o.toCorpus (.value name) path) (grammarPath name directory)
        source s) [] (.error e) := by
  obtain ⟨hresult, htext⟩ := Sentences.print_of_error source hsize hpos
    (Sentences.sentence_of_not_loaded source h s)
  obtain ⟨hbuilt, hfiles⟩ := build_of_not_read source name directory hsize hpos
    (read_of_loaded hdir h) s
  exact {
    printed_result := hresult
    printed_text := htext
    built_result := hbuilt
    complete := fun hok => nomatch hok
    untouched := fun e' he' => ⟨congrArg _ (Except.error.inj (h.symm.trans he')), rfl, hfiles⟩
    written := fun g hg => nomatch h.symm.trans hg }

variable {g : Grammar} (h : loaded files (.value name) o.directory = .ok g)
  (hpath : files.CanWrite path)

include h hpath

/-- **Without a limit both are stopped at the first sentence**, when the file
is there already. -/
theorem inStep_of_unlimited (hlimit : o.maxDepth = .void) (s : σ) :
    InStep files path size (loaded files (.value name) o.directory)
      (Sentences.print files o source (.value name) s)
      (CorpusBuilder.build files (o.toCorpus (.value name) path) (grammarPath name directory)
        source s) [] (.error (.valueless .depthLimit)) := by
  obtain ⟨hresult, htext⟩ := Sentences.print_of_error source hsize hpos
    (Sentences.sentence_of_unlimited source h hlimit s)
  obtain ⟨hbuilt, hfile⟩ := buildCorpus_of_read path 0 source {} s (read_of_loaded hdir h) hpath
  rw [build_of_unlimited source name directory hsize hpos hlimit]
  exact {
    printed_result := hresult
    printed_text := htext
    built_result := by
      rw [CorpusRun.result_stoppedBy, hbuilt]
      rfl
    complete := fun hok => nomatch hok
    untouched := fun e he => nomatch h.symm.trans he
    written := fun _ _ => hfile }

/-- **With one both go through a batch of sentences**, and are stopped where
it is. -/
theorem inStep_of_limited (hstrict : o.strict = false) {limit : Int}
    (hlimit : o.maxDepth = .value limit) (s : σ) :
    let batch := g.batch source { maxDepth := some limit } size.toNat s
    InStep files path size (loaded files (.value name) o.directory)
      (Sentences.print files o source (.value name) s)
      (CorpusBuilder.build files (o.toCorpus (.value name) path) (grammarPath name directory)
        source s) batch.sentences batch.outcome := by
  intro batch
  obtain ⟨hresult, htext⟩ := Sentences.print_of_loaded source h hsize hlimit s
  rw [hstrict] at hresult htext
  obtain ⟨hbuilt, hfile⟩ := buildCorpus_of_read path size source { maxDepth := some limit } s
    (read_of_loaded hdir h) hpath
  rw [build_of_limited source name directory hsize hlimit]
  exact {
    printed_result := hresult
    printed_text := htext
    built_result := hbuilt
    complete := fun hok => by
      have hlength : batch.sentences.length = size.toNat := g.length_batch source _ _ s hok
      omega
    untouched := fun e he => nomatch h.symm.trans he
    written := fun _ _ => hfile }

omit h in
/-- **Printing and building are in step**, whatever they come to. -/
theorem exists_inStep (hstrict : o.strict = false) (s : σ) :
    ∃ sentences result,
      InStep files path size (loaded files (.value name) o.directory)
        (Sentences.print files o source (.value name) s)
        (CorpusBuilder.build files (o.toCorpus (.value name) path) (grammarPath name directory)
          source s) sentences result := by
  cases hload : loaded files (.value name) o.directory with
  | error e =>
    exact ⟨_, _, hload ▸ inStep_of_not_loaded source name hsize hpos hdir hload s⟩
  | ok g =>
    cases hlimit : o.maxDepth with
    | void =>
      have hstep := inStep_of_unlimited source name hsize hpos hdir hload hpath hlimit s
      exact ⟨_, _, hload ▸ hstep⟩
    | value limit =>
      have hstep := inStep_of_limited source name hsize hpos hdir hload hpath hstrict hlimit s
      exact ⟨_, _, hload ▸ hstep⟩

end InStep

end SentenceForge

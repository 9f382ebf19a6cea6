import SentenceForge.Files.GrammarFile

/-!
# Corpora

A corpus is a file of sentences, one to a line. The grammar is read once
and used for every sentence, and nothing is written before it is known to
define its start. From then on the file exists: its directories are made,
it is emptied, and it holds the sentences made so far whether or not the
next one can be.
-/

namespace SentenceForge

/-- The number of sentences of a corpus. -/
def defaultCorpusSize : Int := 1000

/-- The file a corpus is written to. -/
def defaultCorpusPath : Text := "data/rsg_artif_data.txt".toList

/-! ## Batches -/

/-- **Sentences made one after the other**, up to the first that could not
be made. -/
structure Batch (σ : Type) where
  /-- The notices in order. -/
  notices : List Notice
  /-- The choices in order. -/
  choices : List Choice
  /-- The sentences in order. -/
  sentences : List Text
  /-- What stopped the batch, if it is not complete. -/
  stop : Option Error
  /-- What the source remembers afterwards. -/
  source : σ

/-- So many sentences of a grammar. -/
def Grammar.batch {σ : Type} (g : Grammar) (source : Source σ)
    (settings : Settings) : Nat → σ → Batch σ
  | 0, s => ⟨[], [], [], none, s⟩
  | n + 1, s =>
    let x := g.sentence source settings s
    match x.result with
    | .error e => ⟨x.notices, x.choices, [], some e, x.source⟩
    | .ok sentence =>
      let rest := g.batch source settings n x.source
      ⟨x.notices ++ rest.notices, x.choices ++ rest.choices,
        sentence :: rest.sentences, rest.stop, rest.source⟩

/-- Sentences as the lines of a file. -/
def corpusText (sentences : List Text) : Text :=
  sentences.flatMap (· ++ ['\n'])

/-! ## Building -/

/-- What building a corpus leaves behind. -/
structure CorpusRun (σ : Type) where
  /-- The notices, the choices, the number of sentences asked for or what
  stopped the building, and the memory of the source. -/
  generation : Generation σ Int
  /-- The file tree afterwards. -/
  files : FileTree

/-- A run that is stopped by an error once it is through, unless it was
stopped before. -/
def CorpusRun.stoppedBy {σ : Type} (x : CorpusRun σ) (e : Error) :
    CorpusRun σ :=
  { x with generation :=
    { x.generation with result := x.generation.result.bind fun _ => .error e } }

/-- A run that has a result is stopped by the error, and one that has none by
what it was stopped by. -/
@[simp] theorem CorpusRun.result_stoppedBy {σ : Type} (x : CorpusRun σ) (e : Error) :
    (x.stoppedBy e).generation.result
      = x.generation.result.bind fun _ => .error e := rfl

/-- The files stay as they were left. -/
@[simp] theorem CorpusRun.files_stoppedBy {σ : Type} (x : CorpusRun σ) (e : Error) :
    (x.stoppedBy e).files = x.files := rfl

/-- The corpus of a grammar, its directories being there.

Progress is shown while the sentences are made. The display is taken to hand
on their numbers unchanged, whatever their count, and to have no effect on the
corpus: the sentences are made as if it were not there. -/
def writeCorpus {σ : Type} (g : Grammar) (notices : List Notice)
    (files : FileTree) (path : Text) (size : Int) (source : Source σ)
    (settings : Settings) (s : σ) : CorpusRun σ :=
  match files.writable path with
  | .error e => ⟨⟨notices, [], .error (.file e), s⟩, files⟩
  | .ok place =>
    let batch := g.batch source settings size.toNat s
    let result :=
      match batch.stop with
      | some e => .error e
      | none => .ok size
    ⟨⟨notices ++ batch.notices, batch.choices, result, batch.source⟩,
      files.writeText place (corpusText batch.sentences)⟩

/-- **Building a corpus** of so many sentences from a grammar file. A size
that is not positive makes an empty corpus. -/
def buildCorpus {σ : Type} (files : FileTree) (grammarPath path : Text)
    (size : Int) (source : Source σ) (settings : Settings) (s : σ) :
    CorpusRun σ :=
  let grammar := grammarOfFile files grammarPath
  match grammar.result with
  | .error e => ⟨⟨grammar.notices, [], .error e, s⟩, files⟩
  | .ok g =>
    let directory := Path.directory path
    let (files', fault) :=
      if directory.isEmpty then (files, none)
      else files.ensureDirectories directory
    match fault with
    | some e => ⟨⟨grammar.notices, [], .error (.file e), s⟩, files'⟩
    | none =>
      writeCorpus g grammar.notices files' path size source settings s

end SentenceForge

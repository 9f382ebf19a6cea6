import SentenceForge.Corpus
import SentenceForge.Proofs.Files.Tree

/-!
# What building a corpus leaves behind

Building reads the grammar, makes way for the file and writes a batch of
sentences. A grammar that cannot be had stops it before anything is
touched; after that the file holds the sentences of the batch, whether the
batch is complete or was stopped.
-/

namespace SentenceForge

variable {σ : Type}

/-! ## Batches -/

/-- What stopped a batch, or that nothing did. -/
def Batch.outcome (b : Batch σ) : Except Error Unit :=
  match b.stop with
  | some e => .error e
  | none => .ok ()

namespace Grammar

section Batch

variable {g : Grammar} {source : Source σ} {settings : Settings} {s : σ}

/-- A batch whose first sentence cannot be made is stopped there. -/
theorem batch_of_error {e : Error} (h : (g.sentence source settings s).result = .error e)
    (n : Nat) :
    (g.batch source settings (n + 1) s).sentences = []
      ∧ (g.batch source settings (n + 1) s).outcome = .error e := by
  rw [batch]
  simp only [h, Batch.outcome, and_self]

/-- Otherwise it is that sentence and a batch of one less, from what the source
remembers then. -/
theorem batch_of_ok {sentence : Text} (h : (g.sentence source settings s).result = .ok sentence)
    (n : Nat) :
    let rest := g.batch source settings n (g.sentence source settings s).source
    (g.batch source settings (n + 1) s).sentences = sentence :: rest.sentences
      ∧ (g.batch source settings (n + 1) s).outcome = rest.outcome := by
  rw [batch]
  simp only [h, Batch.outcome, and_self]

end Batch

/-- **A batch that is not stopped is complete.** -/
theorem length_batch (g : Grammar) (source : Source σ) (settings : Settings) (n : Nat)
    (s : σ) (h : (g.batch source settings n s).outcome = .ok ()) :
    (g.batch source settings n s).sentences.length = n := by
  induction n generalizing s with
  | zero => rfl
  | succ n ih =>
    cases hx : (g.sentence source settings s).result with
    | error e =>
      rw [(batch_of_error hx n).2] at h
      cases h
    | ok sentence =>
      obtain ⟨hsentences, houtcome⟩ := batch_of_ok hx n
      rw [houtcome] at h
      rw [hsentences, List.length_cons, ih _ h]

end Grammar

/-! ## The grammar of a file -/

section GrammarFile

variable {files : FileTree} {path text : Text}

/-- There is no grammar in a file that cannot be read as text. -/
theorem grammarOfFile_of_not_read {e : Error} (h : files.readText path = .error e) :
    (grammarOfFile files path).result = .error e := by
  rw [grammarOfFile, h]
  rfl

/-- What there is in a file that can is what its text writes. -/
theorem grammarOfFile_of_read (h : files.readText path = .ok text) :
    grammarOfFile files path = Grammar.startable text := by
  rw [grammarOfFile, h]

/-- A text that is no grammar is none to start from. -/
theorem Grammar.startable_of_error {e : Error} (h : (ofText text).result = .error e) :
    (startable text).result = .error e := by
  simp only [startable, Logged.andThen, h]

/-- A grammar is one to start from if it defines the start. -/
theorem Grammar.startable_of_ok {g : Grammar} (h : (ofText text).result = .ok g) :
    (startable text).result
      = if g.defines startName = true then .ok g else .error (.grammar (.noStart startName)) := by
  simp only [startable, Logged.andThen, h]
  split <;> rfl

end GrammarFile

/-! ## Building -/

variable {files : FileTree} {grammarPath : Text} (path : Text) (size : Int) (source : Source σ)
  (settings : Settings) (s : σ)

/-- The building step by step: the grammar is read, directories are made on
the way to the file, and the file is written. -/
theorem buildCorpus_eq : buildCorpus files grammarPath path size source settings s
    = match (grammarOfFile files grammarPath).result with
      | .error e => ⟨⟨(grammarOfFile files grammarPath).notices, [], .error e, s⟩, files⟩
      | .ok g =>
        match (files.prepared path).2 with
        | some e =>
          ⟨⟨(grammarOfFile files grammarPath).notices, [], .error (.file e), s⟩,
            (files.prepared path).1⟩
        | none =>
          writeCorpus g (grammarOfFile files grammarPath).notices (files.prepared path).1 path
            size source settings s := rfl

/-- Nothing is built of a grammar that cannot be had, and no file is
touched. -/
theorem buildCorpus_of_not_read {e : Error}
    (h : (grammarOfFile files grammarPath).result = .error e) :
    (buildCorpus files grammarPath path size source settings s).generation.result = .error e
      ∧ (buildCorpus files grammarPath path size source settings s).files = files := by
  rw [buildCorpus_eq, h]
  exact ⟨rfl, rfl⟩

/-- What is built of a grammar is a batch of its sentences, written to where the
path leads once way was made for it. -/
theorem buildCorpus_of_writable {g : Grammar}
    (h : (grammarOfFile files grammarPath).result = .ok g) (hway : (files.prepared path).2 = none)
    {p : Place} (hp : (files.prepared path).1.writable path = .ok p) :
    let batch := g.batch source settings size.toNat s
    (buildCorpus files grammarPath path size source settings s).generation.result
        = batch.outcome.map (fun _ => size)
      ∧ (buildCorpus files grammarPath path size source settings s).files
        = (files.prepared path).1.writeText p (corpusText batch.sentences) := by
  rw [buildCorpus_eq, h, hway]
  show (writeCorpus g _ _ path size source settings s).generation.result = _
    ∧ (writeCorpus g _ _ path size source settings s).files = _
  unfold writeCorpus
  rw [hp]
  refine ⟨?_, rfl⟩
  show (match (g.batch source settings size.toNat s).stop with
    | some e => Except.error e
    | none => .ok size) = _
  unfold Batch.outcome
  cases (g.batch source settings size.toNat s).stop <;> rfl

/-- **A corpus is a batch of sentences of its grammar**, and they are in the
file whatever stopped it. -/
theorem buildCorpus_of_read {g : Grammar} (h : (grammarOfFile files grammarPath).result = .ok g)
    (hpath : files.CanWrite path) :
    let batch := g.batch source settings size.toNat s
    (buildCorpus files grammarPath path size source settings s).generation.result
        = batch.outcome.map (fun _ => size)
      ∧ (buildCorpus files grammarPath path size source settings s).files.find? path
        = some (.file (Utf8.encode (corpusText batch.sentences))) := by
  obtain ⟨hway, p, hp⟩ := hpath
  obtain ⟨hresult, hfiles⟩ := buildCorpus_of_writable path size source settings s h hway hp
  rw [hfiles]
  exact ⟨hresult, FileTree.find?_writeText hp _⟩

end SentenceForge

import Mathlib.Logic.Function.Iterate
import SentenceForge.Proofs.Corpus
import SentenceForge.Proofs.Sentence.Outcome
import SentenceForge.Proofs.Sentence.Shape

/-!
# What building a corpus does to the files

Building a corpus changes one file, and that one only if the grammar can be
had. What the file holds then is said without the building: the sentence that
follows so many others is made from the memory the one before it leaves
(`Grammar.sentenceAfter`), and the file holds them in a row, up to the first
that cannot be made or as many as were asked for (`CorpusBuilt`).

Each is on a line of its own. A sentence is tidy, so nothing in it ends a line,
in whichever convention lines are told apart (`Text.lines`), and the lines of
the file are the sentences (`lines_corpusText`).
-/

namespace SentenceForge

/-! ## Lines -/

/-- **The lines of a text**: each is ended by a character that ends lines, or by
a carriage return with a line feed, and the last need not be ended. -/
def Text.lines : Text → List Text
  | [] => []
  | c :: s =>
    if c = '\r' ∧ s.head? = some '\n' then lines s
    else if endsLine c then [] :: lines s
    else
      match lines s with
      | [] => [[c]]
      | l :: ls => (c :: l) :: ls

/-- A text without a character that ends lines is the first line in front of a
line feed. -/
theorem Text.lines_append_newline {t : Text} (ht : ∀ c ∈ t, endsLine c = false) (s : Text) :
    lines (t ++ '\n' :: s) = t :: lines s := by
  induction t with
  | nil => rfl
  | cons c t ih =>
    rw [List.forall_mem_cons] at ht
    have hreturn : c ≠ '\r' := by
      rintro rfl
      exact absurd ht.1 (by decide)
    rw [List.cons_append, lines, if_neg fun h => hreturn h.1, if_neg (by simp [ht.1]), ih ht.2]

/-- **The lines of a corpus are its sentences**, if each is on one line. -/
theorem lines_corpusText {sentences : List Text}
    (h : ∀ r ∈ sentences, ∀ c ∈ r, Text.endsLine c = false) :
    Text.lines (corpusText sentences) = sentences := by
  induction sentences with
  | nil => rfl
  | cons r rs ih =>
    rw [List.forall_mem_cons] at h
    have hcons : corpusText (r :: rs) = r ++ '\n' :: corpusText rs :=
      List.append_assoc r ['\n'] (corpusText rs)
    rw [hcons, Text.lines_append_newline h.1, ih h.2]

/-! ## Sentences in a row -/

variable {σ : Type}

namespace Grammar

variable (g : Grammar) (source : Source σ) (settings : Settings)

/-- **The result of the sentence that follows so many others**, each made from
the memory that the one before it leaves. -/
def sentenceAfter (s : σ) (n : Nat) : Except Error Text :=
  (g.sentence source settings ((fun s => (g.sentence source settings s).source)^[n] s)).result

/-- **The sentences of a batch are those in a row.** -/
theorem sentenceAfter_of_getElem?_batch {n : Nat} {s : σ} {i : Nat} {r : Text}
    (h : (g.batch source settings n s).sentences[i]? = some r) :
    g.sentenceAfter source settings s i = .ok r := by
  induction n generalizing s i with
  | zero => cases h
  | succ n ih =>
    cases hx : (g.sentence source settings s).result with
    | error e =>
      rw [(batch_of_error hx n).1] at h
      cases h
    | ok sentence =>
      rw [(batch_of_ok hx n).1] at h
      cases i with
      | zero => exact hx.trans (congrArg Except.ok (Option.some.inj h))
      | succ i => exact ih (s := (g.sentence source settings s).source) h

/-- **What stops a batch is the sentence that follows those made.** -/
theorem sentenceAfter_of_batch_stopped {n : Nat} {s : σ} {e : Error}
    (h : (g.batch source settings n s).outcome = .error e) :
    (g.batch source settings n s).sentences.length < n
      ∧ g.sentenceAfter source settings s (g.batch source settings n s).sentences.length
        = .error e := by
  induction n generalizing s with
  | zero => cases h
  | succ n ih =>
    cases hx : (g.sentence source settings s).result with
    | error e' =>
      obtain ⟨hsentences, houtcome⟩ := batch_of_error hx n
      obtain rfl : e' = e := Except.error.inj (houtcome.symm.trans h)
      rw [hsentences]
      exact ⟨Nat.succ_pos n, hx⟩
    | ok sentence =>
      obtain ⟨hsentences, houtcome⟩ := batch_of_ok hx n
      rw [hsentences]
      obtain ⟨hlt, hstop⟩ := ih (houtcome.symm.trans h)
      exact ⟨Nat.succ_lt_succ hlt, hstop⟩

/-- **A longer batch begins with a shorter one.** -/
theorem batch_sentences_prefix {n m : Nat} (h : n ≤ m) (s : σ) :
    (g.batch source settings n s).sentences <+: (g.batch source settings m s).sentences := by
  induction n generalizing m s with
  | zero => exact List.nil_prefix
  | succ n ih =>
    obtain ⟨m, rfl⟩ := Nat.exists_eq_add_of_le' (Nat.le_trans (Nat.succ_pos n) h)
    cases hx : (g.sentence source settings s).result with
    | error e =>
      rw [(batch_of_error hx n).1]
      exact List.nil_prefix
    | ok sentence =>
      rw [(batch_of_ok hx n).1, (batch_of_ok hx m).1, List.prefix_cons_inj]
      exact ih (Nat.le_of_succ_le_succ h) _

/-- The sentences of a batch of a grammar that was built are each on one
line. -/
theorem batch_on_one_line {entries : List Entry} {g : Grammar}
    (built : (ofEntries entries).result = .ok g) {n : Nat} {s : σ} {r : Text}
    (h : r ∈ (g.batch source settings n s).sentences) : ∀ c ∈ r, Text.endsLine c = false := by
  obtain ⟨i, hi⟩ := List.mem_iff_getElem?.1 h
  have hresult := g.sentenceAfter_of_getElem?_batch source settings hi
  obtain ⟨ts, hts, rfl⟩ := (Generated.ofGrammar entries g built hresult).exists_words
  exact (tidy_sentenceOfRaw hts).on_one_line

/-- **Each ends in what its settings permit.** -/
theorem sentenceAfter_permitted (s : σ) (n : Nat) :
    settings.Permits (g.sentenceAfter source settings s n) :=
  (expand_permitted g source settings g.start _).map sentenceOfRaw

end Grammar

/-! ## The effect of building -/

/-- **What building a corpus leaves behind**: one file with the sentences in a
row, and otherwise at most directories where nothing was. -/
structure CorpusBuilt (files : FileTree) (path : Text) (g : Grammar) (size : Int)
    (source : Source σ) (settings : Settings) (s : σ) (run : CorpusRun σ) (p : Place)
    (sentences : List Text) : Prop where
  /-- The path leads to the file. -/
  located : run.files.locate path = .ok p
  /-- The file holds the sentences, each with a line feed behind it, and nothing
  else. -/
  written : run.files.at? p = some (.file (Utf8.encode (corpusText sentences)))
  /-- No other file is changed, made or removed. -/
  untouched : ∀ q ≠ p, run.files.at? q = files.at? q
    ∨ (files.at? q = none ∧ run.files.at? q = some .directory)
  /-- The sentences are the successive ones of the grammar. -/
  successive : ∀ i r, sentences[i]? = some r → g.sentenceAfter source settings s i = .ok r
  /-- They are as many as were asked for, or all before the first that cannot be
  made, and that is what the building is stopped by. -/
  complete_or_stopped :
    (run.generation.result = .ok size ∧ sentences.length = size.toNat)
      ∨ ∃ e, run.generation.result = .error e ∧ sentences.length < size.toNat
        ∧ g.sentenceAfter source settings s sentences.length = .error e
        ∧ settings.Permits (.error e : Except Error Text)
  /-- The lines of the file are the sentences. -/
  lines_eq : Text.lines (corpusText sentences) = sentences

/-- **A corpus of a grammar to start from is built** at a path that can be
written, and one of more sentences begins with it. -/
theorem exists_corpusBuilt {files : FileTree} {path grammarPath text : Text}
    (writable : files.CanWrite path) (hread : files.readText grammarPath = .ok text) {g : Grammar}
    (hstart : (Grammar.startable text).result = .ok g) (size : Int) (source : Source σ)
    (settings : Settings) (s : σ) :
    let run (size : Int) := buildCorpus files grammarPath path size source settings s
    ∃ p sentences, CorpusBuilt files path g size source settings s (run size) p sentences
      ∧ ∀ size' ≥ size, ∃ more,
        (run size').files.at? p = some (.file (Utf8.encode (corpusText sentences ++ more))) := by
  intro run
  obtain ⟨hway, p, hp⟩ := writable
  have hgrammar : (grammarOfFile files grammarPath).result = .ok g := by
    rw [grammarOfFile_of_read hread, hstart]
  have hfiles : ∀ n, (run n).files = (files.prepared path).1.writeText p
      (corpusText (g.batch source settings n.toNat s).sentences) := fun n =>
    (buildCorpus_of_writable path n source settings s hgrammar hway hp).2
  have hresult := (buildCorpus_of_writable path size source settings s hgrammar hway hp).1
  obtain ⟨entries, built⟩ := Grammar.exists_built_of_startable hstart
  let batch := g.batch source settings size.toNat s
  have corpus : CorpusBuilt files path g size source settings s (run size) p batch.sentences := {
    located := by
      rw [hfiles]
      exact FileTree.locate_writeText hp _
    written := by
      rw [hfiles]
      exact FileTree.at?_writeText hp _
    untouched := by
      intro q hq
      rw [hfiles, FileTree.writeText, FileTree.at?_put_of_ne _ _ hq.symm]
      exact files.onlyMadeDirectories_prepared path q
    successive := fun i r => g.sentenceAfter_of_getElem?_batch source settings
    complete_or_stopped := by
      cases houtcome : batch.outcome with
      | ok u =>
        rw [houtcome] at hresult
        exact .inl ⟨hresult, g.length_batch source settings _ s houtcome⟩
      | error e =>
        rw [houtcome] at hresult
        obtain ⟨hlt, hstop⟩ := g.sentenceAfter_of_batch_stopped source settings houtcome
        refine .inr ⟨e, hresult, hlt, hstop, ?_⟩
        rw [← hstop]
        exact g.sentenceAfter_permitted source settings s _
    lines_eq := lines_corpusText fun r hr => Grammar.batch_on_one_line source settings built hr }
  refine ⟨p, batch.sentences, corpus, fun size' hsize => ?_⟩
  obtain ⟨more, hmore⟩ := g.batch_sentences_prefix source settings (Int.toNat_le_toNat hsize) s
  refine ⟨corpusText more, ?_⟩
  rw [hfiles, ← hmore, corpusText, List.flatMap_append]
  exact FileTree.at?_writeText hp _

/-- **What building a corpus does to the files.** If the grammar file cannot be
read as text, if the text is no grammar or if it does not define the start, then
that is the error and nothing is changed: no directory is made, and the file
that is there stays what it was. Otherwise the file that the path leads to holds
the successive sentences of the grammar, each on a line of its own, up to the
number asked for or to the first that cannot be made, and no other file is
changed. This holds of every path that can be written, that of the grammar file
included. A corpus of more sentences begins with that of fewer. -/
theorem buildCorpus_effect {files : FileTree} {path : Text} (writable : files.CanWrite path)
    (grammarPath : Text) (size : Int) (source : Source σ) (settings : Settings) (s : σ) :
    let run (size : Int) := buildCorpus files grammarPath path size source settings s
    (∀ e, files.readText grammarPath = .error e →
      (run size).generation.result = .error e ∧ (run size).files = files)
    ∧ (∀ text e, files.readText grammarPath = .ok text → (Grammar.ofText text).result = .error e →
      (run size).generation.result = .error e ∧ (run size).files = files)
    ∧ (∀ text g, files.readText grammarPath = .ok text → (Grammar.ofText text).result = .ok g →
      g.defines startName = false →
      (run size).generation.result = .error (.grammar (.noStart startName))
        ∧ (run size).files = files)
    ∧ (∀ text g, files.readText grammarPath = .ok text → (Grammar.ofText text).result = .ok g →
      g.defines startName = true →
      ∃ p sentences, CorpusBuilt files path g size source settings s (run size) p sentences
        ∧ ∀ size' ≥ size, ∃ more,
          (run size').files.at? p = some (.file (Utf8.encode (corpusText sentences ++ more)))) := by
  intro run
  refine ⟨fun e h => ?unread, fun text e hread h => ?unparsed, fun text g hread hparse h => ?lacking,
    fun text g hread hparse h => ?built⟩
  case unread => exact buildCorpus_of_not_read _ _ _ _ _ (grammarOfFile_of_not_read h)
  case unparsed =>
    refine buildCorpus_of_not_read _ _ _ _ _ ?_
    rw [grammarOfFile_of_read hread, Grammar.startable_of_error h]
  case lacking =>
    refine buildCorpus_of_not_read _ _ _ _ _ ?_
    rw [grammarOfFile_of_read hread, Grammar.startable_of_ok hparse, h, if_neg Bool.false_ne_true]
  case built =>
    refine exists_corpusBuilt writable hread ?_ size source settings s
    rw [Grammar.startable_of_ok hparse, if_pos h]

/-- A corpus that is written over its own grammar, and whose second sentence
cannot be made: the file holds the first. -/
theorem buildCorpus_effect_of_own_file :
    let path := "g.g".toList
    let files := FileTree.empty.put ⟨.working 0, [path]⟩
      (.file (Utf8.encode "\x7b<start> a ; <start> ;\x7d".toList))
    let run := buildCorpus files path path 3 Random.Chooser.source { maxDepth := some 1 }
      (.ofScript [0, 1])
    files.CanWrite path ∧ run.generation.result = .error (.grammar (.tooDeep startName 1))
      ∧ ∃ g p, CorpusBuilt files path g 3 Random.Chooser.source { maxDepth := some 1 }
        (.ofScript [0, 1]) run p ["a".toList] := by
  intro path files run
  have writable : files.CanWrite path := ⟨rfl, ⟨.working 0, [path]⟩, rfl⟩
  refine ⟨writable, by rfl, ?_⟩
  obtain ⟨p, sentences, built, -⟩ := (buildCorpus_effect writable path 3 Random.Chooser.source
    { maxDepth := some 1 } (.ofScript [0, 1])).2.2.2 "\x7b<start> a ; <start> ;\x7d".toList
    (Grammar.ofDefinitions [⟨startName, ["a".toList, startName]⟩]) (by rfl) (by rfl) (by rfl)
  -- the sentences are the lines of what is in the file
  have located : run.files.locate path = .ok ⟨.working 0, [path]⟩ := by rfl
  obtain rfl := Except.ok.inj (located.symm.trans built.located)
  have written : run.files.at? ⟨.working 0, [path]⟩ = some (.file (Utf8.encode "a\n".toList)) := by
    rfl
  have held := Option.some.inj (written.symm.trans built.written)
  have text : "a\n".toList = corpusText sentences :=
    Utf8.encode_injective (FileNode.file.inj held)
  have lines : sentences = ["a".toList] := by
    rw [← built.lines_eq, ← text]
    decide
  exact ⟨_, _, lines ▸ built⟩

end SentenceForge

import SentenceForge.Proofs.Corpus.Effect

/-!
# How many lines a corpus has

Building a corpus results in the number that was asked for, and nothing on the way
counts. That the file has so many lines is a fact about the sentences: a batch that
is not stopped has as many as it was asked for, and none of them ends a line, so each
makes one (`endsLines_corpusText`).

A number below zero is asked for like any other, makes no line, and is the result all
the same. It is then the result and not the number of lines, and this happens with
such a number only (`buildCorpus_lineCount`).
-/

namespace SentenceForge

/-! ## Counting lines -/

/-- **A text of so many lines**, each ended by a line feed. -/
def Text.EndsLines (n : Nat) (t : Text) : Prop :=
  ∃ lines : List Text, lines.length = n ∧ (∀ l ∈ lines, '\n' ∉ l)
    ∧ t = lines.flatMap (· ++ ['\n'])

/-- Such a text has as many line feeds as lines. -/
theorem Text.EndsLines.count_eq {n : Nat} {t : Text} (h : EndsLines n t) : t.count '\n' = n := by
  obtain ⟨lines, rfl, hlines, rfl⟩ := h
  induction lines with
  | nil => rfl
  | cons l ls ih =>
    rw [List.forall_mem_cons] at hlines
    rw [List.flatMap_cons, List.count_append, List.count_append, List.count_eq_zero.2 hlines.1,
      ih hlines.2, List.count_singleton_self, Nat.zero_add, Nat.add_comm, List.length_cons]

/-- **A corpus has a line for each sentence**, if each is on one line. -/
theorem endsLines_corpusText {sentences : List Text}
    (h : ∀ r ∈ sentences, ∀ c ∈ r, Text.endsLine c = false) :
    Text.EndsLines sentences.length (corpusText sentences) := by
  refine ⟨sentences, rfl, fun r hr hmem => ?_, rfl⟩
  exact absurd (h r hr '\n' hmem) (by decide)

/-! ## The result of building -/

section Built

variable {σ : Type} {files : FileTree} {grammarPath path : Text} {size : Int} {source : Source σ}
  {settings : Settings} {s : σ} {m : Int}

/-- **Where a corpus was built, there was a grammar for it and a file could be
written.** -/
theorem exists_grammar_of_buildCorpus
    (h : (buildCorpus files grammarPath path size source settings s).generation.result = .ok m) :
    ∃ g, (grammarOfFile files grammarPath).result = .ok g ∧ files.CanWrite path := by
  rw [buildCorpus_eq] at h
  cases hgrammar : (grammarOfFile files grammarPath).result with
  | error e =>
    rw [hgrammar] at h
    cases h
  | ok g =>
    refine ⟨g, rfl, ?_⟩
    rw [hgrammar] at h
    cases hway : (files.prepared path).2 with
    | some e =>
      simp only [hway] at h
      cases h
    | none =>
      refine ⟨hway, ?_⟩
      simp only [hway, writeCorpus] at h
      cases hplace : (files.prepared path).1.writable path with
      | error e =>
        rw [hplace] at h
        cases h
      | ok p => exact ⟨p, rfl⟩

/-- A grammar that is read from a file was built from entries. -/
theorem exists_built_of_grammarOfFile {g : Grammar}
    (h : (grammarOfFile files grammarPath).result = .ok g) :
    ∃ entries, (Grammar.ofEntries entries).result = .ok g := by
  cases hread : files.readText grammarPath with
  | error e =>
    rw [grammarOfFile_of_not_read hread] at h
    cases h
  | ok text =>
    rw [grammarOfFile_of_read hread] at h
    exact Grammar.exists_built_of_startable h

/-- **A corpus that was built has as many lines as were asked for**, and that number is
the result. The file holds these lines and nothing behind the last. Of a number below
zero it holds none, and so the result is the number of its lines exactly if it is not
below zero. -/
theorem buildCorpus_lineCount
    (h : (buildCorpus files grammarPath path size source settings s).generation.result = .ok m) :
    m = size
      ∧ ∃ text, (buildCorpus files grammarPath path size source settings s).files.find? path
          = some (.file (Utf8.encode text))
        ∧ Text.EndsLines size.toNat text
        ∧ ((text.count '\n' : Int) = m ↔ 0 ≤ size) := by
  obtain ⟨g, hgrammar, hpath⟩ := exists_grammar_of_buildCorpus h
  obtain ⟨entries, built⟩ := exists_built_of_grammarOfFile hgrammar
  obtain ⟨hresult, hfile⟩ := buildCorpus_of_read path size source settings s hgrammar hpath
  rw [h] at hresult
  cases houtcome : (g.batch source settings size.toNat s).outcome with
  | error e =>
    rw [houtcome] at hresult
    cases hresult
  | ok u =>
    rw [houtcome] at hresult
    obtain rfl : m = size := Except.ok.inj hresult
    have hlines := endsLines_corpusText fun r hr =>
      Grammar.batch_on_one_line source settings built (n := m.toNat) (s := s) hr
    rw [g.length_batch source settings m.toNat s houtcome] at hlines
    refine ⟨rfl, _, hfile, hlines, ?_⟩
    rw [hlines.count_eq]
    omega

end Built

/-- Of one grammar two sentences and less than none, in a directory that is made for
them: the file has two lines and no line, and the results are two and minus three. -/
theorem buildCorpus_lineCount_of_negative :
    let files := FileTree.empty.put ⟨.working 0, ["g.g".toList]⟩
      (.file (Utf8.encode "\x7b<start> a , b ; c\x7d".toList))
    let run (size : Int) := buildCorpus files "g.g".toList "out/c.txt".toList size
      Random.Chooser.source {} (.ofScript [0, 1])
    (run 2).generation.result = .ok 2
      ∧ (run 2).files.find? "out/c.txt".toList = some (.file (Utf8.encode "a, b\nc\n".toList))
      ∧ (run (-3)).generation.result = .ok (-3)
      ∧ (∃ text, (run (-3)).files.find? "out/c.txt".toList = some (.file (Utf8.encode text))
        ∧ Text.EndsLines 0 text ∧ (text.count '\n' : Int) ≠ -3) := by
  intro files run
  have hresult : (run (-3)).generation.result = .ok (-3) := by rfl
  obtain ⟨-, text, hfile, hlines, hcount⟩ := buildCorpus_lineCount hresult
  refine ⟨by rfl, by rfl, hresult, text, hfile, hlines, fun heq => ?_⟩
  exact absurd (hcount.1 heq) (by decide)

end SentenceForge

import SentenceForge.Proofs.Corpus.Effect
import SentenceForge.Proofs.Program.Agreement

/-!
# What the sentence program survives

The sentence program reports two kinds of error and is stopped by the rest.
Which errors there are is a matter of where they come from: a void option, the
reading of the file, its text, the grammar or an expansion. Those of the last
three are faults of the grammar, so they are reported, and so is a file that is
not there. What is left can be said without running the program: options that
are void where they are needed, and a file that cannot be read for another
reason, or whose bytes are no text (`Escapes`).

So whether a grammar stops the program does not depend on the source or on what
was asked before (`perform_error_iff`). The program that is given a
grammar ends by that, and the one that asks goes on until it is told to stop, if
none of the grammars it is asked for stops it (`Conversed`).
-/

namespace SentenceForge

open Output

variable {σ : Type}

/-! ## Files that stop the program -/

/-- **A file that cannot be read as text** although it is there, or something in
its place or on the way to it, with the error of it. -/
inductive Unreadable (files : FileTree) (path : Text) : Error → Prop where
  /-- Something is in the way of reading it. -/
  | barred {f : FileFault} (fault : files.read path = .error f) (present : ∀ p, f ≠ .absent p) :
      Unreadable files path (.file f)
  /-- Its bytes are no text. -/
  | undecodable {bytes : List UInt8} {f : Utf8.Fault} (read : files.read path = .ok bytes)
      (fault : Utf8.decode bytes = .error f) : Unreadable files path (.encoding f)

/-- The error is that of reading it. -/
theorem Unreadable.readText_eq {files : FileTree} {path : Text} {e : Error}
    (h : Unreadable files path e) : files.readText path = .error e := by
  unfold FileTree.readText
  cases h with
  | barred fault present => rw [fault]
  | undecodable read fault =>
    rw [read]
    simp only [fault]

/-- **A file that cannot be read as text** is not there, or is unreadable. -/
theorem absent_or_unreadable {files : FileTree} {path : Text} {e : Error}
    (h : files.readText path = .error e) :
    (∃ p, e = .file (.absent p)) ∨ Unreadable files path e := by
  unfold FileTree.readText at h
  cases hread : files.read path with
  | error f =>
    rw [hread] at h
    obtain rfl := Except.error.inj h
    by_cases habsent : ∃ p, f = .absent p
    · obtain ⟨p, rfl⟩ := habsent
      exact .inl ⟨p, rfl⟩
    · exact .inr (.barred hread fun p hp => habsent ⟨p, hp⟩)
  | ok bytes =>
    rw [hread] at h
    dsimp only at h
    cases hdecode : Utf8.decode bytes with
    | error f =>
      rw [hdecode] at h
      obtain rfl := Except.error.inj h
      exact .inr (.undecodable hread hdecode)
    | ok text =>
      rw [hdecode] at h
      cases h

/-- **A text that is no grammar to start from has a fault.** -/
theorem Grammar.exists_fault_of_startable {text : Text} {e : Error}
    (h : (startable text).result = .error e) : ∃ f, e = .grammar f := by
  cases hread : Definition.ofText text with
  | error f =>
    have htext : (ofText text).result = .error (.grammar f) := by
      rw [ofText, hread]
      rfl
    exact ⟨f, Except.error.inj (h.symm.trans (startable_of_error htext))⟩
  | ok ds =>
    by_cases hlacks : LacksStart ds
    · exact ⟨_, Except.error.inj (h.symm.trans (startable_of_lacksStart hread hlacks))⟩
    · obtain ⟨hstart, hresult⟩ := startable_of_not_lacksStart hread hlacks
      rw [hstart, hresult] at h
      cases h

/-- Under a limit what stops an expansion is a fault. -/
theorem Settings.Permits.exists_fault {settings : Settings} {α : Type} {e : Error}
    (h : settings.Permits (.error e : Except Error α)) {limit : Int}
    (limited : settings.maxDepth = some limit) : ∃ f, e = .grammar f := by
  cases h with
  | tooDeep name limit _ => exact ⟨_, rfl⟩
  | undefined name _ => exact ⟨_, rfl⟩
  | exhausted name unlimited =>
    rw [limited] at unlimited
    cases unlimited

namespace Sentences

variable {files : FileTree} {o : Options} {grammar : Given Text} {e : Error}

/-! ## What stops the program -/

/-- **What stops the program at a grammar.** The number of sentences has to be
there in any case, and the rest if it is not nothing: the name of the grammar
and its directory, a file that can be read as text if there is one, and the
limit if the file makes a grammar. -/
inductive Escapes (files : FileTree) (o : Options) (grammar : Given Text) : Error → Prop where
  /-- The number is void. -/
  | count (void : o.size = .void) : Escapes files o grammar (.valueless .count)
  /-- The name is void. -/
  | name {n : Int} (size : o.size = .value n) (asked : 1 ≤ n) (void : grammar = .void) :
      Escapes files o grammar (.valueless .grammarName)
  /-- The directory is void. -/
  | directory {n : Int} {name : Text} (size : o.size = .value n) (asked : 1 ≤ n)
      (named : grammar = .value name) (void : o.directory = .void) :
      Escapes files o grammar (.valueless .path)
  /-- The file is unreadable. -/
  | file {n : Int} {name directory : Text} {e : Error} (size : o.size = .value n) (asked : 1 ≤ n)
      (named : grammar = .value name) (placed : o.directory = .value directory)
      (unreadable : Unreadable files (grammarPath name directory) e) : Escapes files o grammar e
  /-- The limit is void. -/
  | limit {n : Int} {g : Grammar} (size : o.size = .value n) (asked : 1 ≤ n)
      (made : loaded files grammar o.directory = .ok g) (void : o.maxDepth = .void) :
      Escapes files o grammar (.valueless .depthLimit)

/-- An error of reading an unreadable file is not reported. -/
theorem report?_of_unreadable {path : Text} (h : Unreadable files path e) :
    report? grammar e = none := by
  cases h with
  | barred fault present =>
    unfold report?
    split
    · next p heq => exact absurd (Error.file.inj heq) (present p)
    · next heq => cases heq
    · rfl
  | undecodable => cases grammar <;> rfl

/-- A report writes something to the second stream. -/
theorem stderr_ne_nil_of_report? {lines : List Output} (h : report? grammar e = some lines) :
    stderr lines ≠ [] := by
  unfold report? at h
  split at h
  · obtain rfl := Option.some.inj h
    exact List.append_ne_nil_of_left_ne_nil (List.append_ne_nil_of_right_ne_nil _ (by decide)) _
  · obtain rfl := Option.some.inj h
    exact List.append_ne_nil_of_left_ne_nil (List.cons_ne_nil _ _) _
  · cases h

/-- **What stops the program is an error of printing** that is not reported,
whatever the source. -/
theorem Escapes.print_error (h : Escapes files o grammar e) (source : Source σ) (s : σ) :
    (print files o source grammar s).result = .error e ∧ report? grammar e = none := by
  cases h with
  | count void =>
    unfold print
    rw [void]
    exact ⟨rfl, report?_valueless _ _⟩
  | name size asked void =>
    have hload : loaded files grammar o.directory = .error (.valueless .grammarName) := by
      rw [void]
      rfl
    exact ⟨(print_of_error source size asked (sentence_of_not_loaded source hload s)).1,
      report?_valueless _ _⟩
  | directory size asked named void =>
    have hload : loaded files grammar o.directory = .error (.valueless .path) := by
      rw [named, void]
      rfl
    exact ⟨(print_of_error source size asked (sentence_of_not_loaded source hload s)).1,
      report?_valueless _ _⟩
  | file size asked named placed unreadable =>
    have hload : loaded files grammar o.directory = .error e := by
      rw [named, placed]
      exact grammarOfFile_of_not_read unreadable.readText_eq
    exact ⟨(print_of_error source size asked (sentence_of_not_loaded source hload s)).1,
      report?_of_unreadable unreadable⟩
  | limit size asked made void =>
    exact ⟨(print_of_error source size asked (sentence_of_unlimited source made void s)).1,
      report?_valueless _ _⟩

/-- Without a grammar what stops the program is a void option or the file: what is
wrong with a text is reported. -/
theorem escapes_of_not_loaded {n : Int} (size : o.size = .value n) (asked : 1 ≤ n)
    (h : loaded files grammar o.directory = .error e) (silent : report? grammar e = none) :
    Escapes files o grammar e := by
  cases named : grammar with
  | void =>
    rw [named] at h
    obtain rfl := Except.error.inj h
    exact .name size asked rfl
  | value name =>
    rw [named] at h silent
    cases placed : o.directory with
    | void =>
      rw [placed] at h
      obtain rfl := Except.error.inj h
      exact .directory size asked rfl placed
    | value directory =>
      have hfile := read_of_loaded placed h
      cases hread : files.readText (grammarPath name directory) with
      | error e' =>
        obtain rfl : e' = e :=
          Except.error.inj ((grammarOfFile_of_not_read hread).symm.trans hfile)
        rcases absent_or_unreadable hread with ⟨p, rfl⟩ | unreadable
        · cases silent
        · exact .file size asked rfl placed unreadable
      | ok text =>
        rw [grammarOfFile_of_read hread] at hfile
        obtain ⟨f, rfl⟩ := Grammar.exists_fault_of_startable hfile
        cases silent

/-- What stops the sentences of a grammar under a limit is reported. -/
theorem report?_ne_none_of_batch {g : Grammar} (made : loaded files grammar o.directory = .ok g)
    {source : Source σ} {settings : Settings} {limit : Int} (limited : settings.maxDepth = some limit)
    {n : Nat} {s : σ} (h : (g.batch source settings n s).outcome = .error e) :
    report? grammar e ≠ none := by
  obtain ⟨name, directory, rfl, -, -⟩ := exists_of_loaded made
  obtain ⟨-, hstop⟩ := g.sentenceAfter_of_batch_stopped source settings h
  have permitted := g.sentenceAfter_permitted source settings s
    (g.batch source settings n s).sentences.length
  rw [hstop] at permitted
  obtain ⟨f, rfl⟩ := permitted.exists_fault limited
  exact Option.some_ne_none _

/-- Nothing goes wrong where nothing is asked for. -/
theorem print_of_not_asked {n : Int} (size : o.size = .value n) (asked : ¬ 1 ≤ n)
    (source : Source σ) (s : σ) :
    print files o source grammar s = ⟨[.line rule, .line rule], .ok (), s⟩ := by
  have hnone : n.toNat = 0 := by omega
  unfold print
  rw [size, Given.get_value]
  dsimp only
  rw [hnone]
  rfl

/-! ## Grammars that are handled -/

/-- **All sentences of a grammar are printed**: as many as were asked for, each on
a line and between rules, and they are the successive ones of the grammar. -/
def PrintedAll (files : FileTree) (o : Options) (source : Source σ) (grammar : Given Text) (s : σ)
    (outputs : List Output) : Prop :=
  ∃ (n : Int) (sentences : List Text), o.size = .value n ∧ sentences.length = n.toNat
    ∧ stdout outputs = ruleLine ++ (corpusText sentences ++ ruleLine)
    ∧ ∀ i r, sentences[i]? = some r → ∃ g limit, loaded files grammar o.directory = .ok g
      ∧ o.maxDepth = .value limit
      ∧ g.sentenceAfter source { strict := o.strict, maxDepth := some limit } s i = .ok r

/-- With a grammar and a limit all sentences are printed, or what stops them is
reported. -/
theorem print_outcome_of_limited {n limit : Int} {g : Grammar} (size : o.size = .value n)
    (made : loaded files grammar o.directory = .ok g) (limited : o.maxDepth = .value limit)
    (source : Source σ) (s : σ) :
    let x := print files o source grammar s
    (x.result = .ok () ∧ PrintedAll files o source grammar s x.outputs)
      ∨ ∃ e, x.result = .error e ∧ report? grammar e ≠ none := by
  intro x
  obtain ⟨hresult, htext⟩ := print_of_loaded source made size limited s
  let batch := g.batch source { strict := o.strict, maxDepth := some limit } n.toNat s
  cases houtcome : batch.outcome with
  | ok u =>
    rw [houtcome] at hresult htext
    have hlength : batch.sentences.length = n.toNat := g.length_batch source _ _ s houtcome
    refine .inl ⟨hresult, n, batch.sentences, size, hlength, htext, fun i r hr => ?_⟩
    exact ⟨g, limit, made, limited, g.sentenceAfter_of_getElem?_batch source _ hr⟩
  | error e =>
    rw [houtcome] at hresult
    exact .inr ⟨e, hresult, report?_ne_none_of_batch made rfl houtcome⟩

/-- **What printing comes to**: all sentences are printed, or there is an error,
and one that is not reported is among those that stop the program. -/
theorem print_outcome (source : Source σ) (s : σ) :
    let x := print files o source grammar s
    (x.result = .ok () ∧ PrintedAll files o source grammar s x.outputs)
      ∨ ∃ e, x.result = .error e ∧ (report? grammar e = none → Escapes files o grammar e) := by
  intro x
  cases size : o.size with
  | void =>
    have hx : x.result = .error (.valueless .count) := by
      unfold x print
      rw [size]
      rfl
    exact .inr ⟨_, hx, fun _ => .count size⟩
  | value n =>
    by_cases asked : 1 ≤ n
    · cases made : loaded files grammar o.directory with
      | error e =>
        exact .inr ⟨e, (print_of_error source size asked (sentence_of_not_loaded source made s)).1,
          escapes_of_not_loaded size asked made⟩
      | ok g =>
        cases limited : o.maxDepth with
        | void =>
          exact .inr ⟨_, (print_of_error source size asked
            (sentence_of_unlimited source made limited s)).1, fun _ => .limit size asked made limited⟩
        | value limit =>
          rcases print_outcome_of_limited size made limited source s with
            printed | ⟨e, hresult, reported⟩
          · exact .inl printed
          · exact .inr ⟨e, hresult, fun silent => absurd silent reported⟩
    · have hx : x = ⟨[.line rule, .line rule], .ok (), s⟩ := print_of_not_asked size asked source s
      have hnone : 0 = n.toNat := by omega
      rw [hx]
      exact .inl ⟨rfl, n, [], size, hnone, rfl, fun _ _ hr => nomatch hr⟩

/-- **A grammar is handled**, with what is written and whether all went well:
either its sentences are printed, or what is in their way is reported on the
second stream, behind what was printed before. -/
inductive Handled (files : FileTree) (o : Options) (source : Source σ) (grammar : Given Text)
    (s : σ) : List Output → Bool → Prop where
  /-- All sentences are printed. -/
  | printed (result : (print files o source grammar s).result = .ok ())
      (all : PrintedAll files o source grammar s (print files o source grammar s).outputs) :
      Handled files o source grammar s (print files o source grammar s).outputs true
  /-- An error is reported. -/
  | reported {e : Error} {lines : List Output}
      (result : (print files o source grammar s).result = .error e)
      (report : report? grammar e = some lines) (shown : stderr lines ≠ []) :
      Handled files o source grammar s ((print files o source grammar s).outputs ++ lines) false

section Performing

variable {source : Source σ} {s : σ} {lines : List Output}

/-- Where all sentences are printed nothing is added. -/
theorem perform_of_printed (result : (print files o source grammar s).result = .ok ()) :
    let x := print files o source grammar s
    perform files o source grammar s = ⟨x.outputs, .ok true, x.source⟩ := by
  simp only [perform, result]

/-- The report of an error is added. -/
theorem perform_of_reported (result : (print files o source grammar s).result = .error e)
    (report : report? grammar e = some lines) :
    let x := print files o source grammar s
    perform files o source grammar s = ⟨x.outputs ++ lines, .ok false, x.source⟩ := by
  simp only [perform, result, report]

/-- An error without a report is let through. -/
theorem perform_of_silent (result : (print files o source grammar s).result = .error e)
    (silent : report? grammar e = none) :
    let x := print files o source grammar s
    perform files o source grammar s = ⟨x.outputs, .error e, x.source⟩ := by
  simp only [perform, result, silent]

end Performing

/-- **What becomes of a grammar**: it is handled, or it stops the program. -/
theorem perform_outcome (source : Source σ) (s : σ) :
    let x := perform files o source grammar s
    (∃ well, x.result = .ok well ∧ Handled files o source grammar s x.outputs well)
      ∨ ∃ e, x.result = .error e ∧ Escapes files o grammar e := by
  rcases print_outcome source s with ⟨result, all⟩ | ⟨e, result, escapes⟩
  · rw [perform_of_printed result]
    exact .inl ⟨true, rfl, .printed result all⟩
  · cases report : report? grammar e with
    | some lines =>
      rw [perform_of_reported result report]
      exact .inl ⟨false, rfl, .reported result report (stderr_ne_nil_of_report? report)⟩
    | none =>
      rw [perform_of_silent result report]
      exact .inr ⟨e, rfl, escapes report⟩

/-- **A grammar that does not stop the program is handled.** -/
theorem perform_of_not_escapes (h : ∀ e, ¬ Escapes files o grammar e) (source : Source σ)
    (s : σ) :
    ∃ well, (perform files o source grammar s).result = .ok well
      ∧ Handled files o source grammar s (perform files o source grammar s).outputs well := by
  rcases perform_outcome source s with handled | ⟨e, -, escapes⟩
  · exact handled
  · exact absurd escapes (h e)

/-- **What stops the program at a grammar is decided beforehand**, whatever the
source and whatever was asked for before. -/
theorem perform_error_iff (source : Source σ) (s : σ) :
    (perform files o source grammar s).result = .error e ↔ Escapes files o grammar e := by
  constructor
  · intro h
    rcases perform_outcome source s with ⟨well, hwell, -⟩ | ⟨e', he', escapes⟩
    · cases hwell.symm.trans h
    · obtain rfl := Except.error.inj (he'.symm.trans h)
      exact escapes
  · intro h
    obtain ⟨result, silent⟩ := h.print_error source s
    rw [perform_of_silent result silent]

/-! ## The asking -/

/-- **The names that are asked for**: the answers without the blanks around them,
up to the first stop word, and without the empty ones. -/
def namesAsked (lines : List Text) : List Text :=
  ((lines.map Text.trim).takeWhile fun name => !stopWords.contains name).filter
    fun name => !name.isEmpty

/-- **A conversation**, answer by answer, with what is written: after each question
the asking ends with a stop word or with the answers, and goes on otherwise,
with the grammar handled if there is one. -/
inductive Conversed (files : FileTree) (o : Options) (source : Source σ) :
    List Text → σ → List Output → Prop where
  /-- The answers end, and so does the line of the question. -/
  | ended (s : σ) : Conversed files o source [] s [.out prompt, .line []]
  /-- A stop word ends the asking. -/
  | stopped {line : Text} {lines : List Text} {s : σ} (stop : Text.trim line ∈ stopWords) :
      Conversed files o source (line :: lines) s [.out prompt]
  /-- An empty answer is passed over. -/
  | passed {line : Text} {lines : List Text} {s : σ} {outputs : List Output}
      (more : Text.trim line ∉ stopWords) (blank : Text.trim line = [])
      (rest : Conversed files o source lines s outputs) :
      Conversed files o source (line :: lines) s (.out prompt :: outputs)
  /-- A grammar is handled, and the asking goes on whether all went well or not. -/
  | handled {line : Text} {lines : List Text} {s : σ} {outputs after : List Output} {well : Bool}
      (more : Text.trim line ∉ stopWords) (named : Text.trim line ≠ [])
      (handled : Handled files o source (.value (Text.trim line)) s outputs well)
      (rest : Conversed files o source lines
        (perform files o source (.value (Text.trim line)) s).source after) :
      Conversed files o source (line :: lines) s (.out prompt :: (outputs ++ after))

section Asking

variable {line : Text} {lines : List Text}

/-- Nothing is asked for from a stop word on. -/
theorem namesAsked_of_stop (stop : Text.trim line ∈ stopWords) :
    namesAsked (line :: lines) = [] := by
  rw [namesAsked, List.map_cons, List.takeWhile_cons_of_neg (by simpa using stop)]
  rfl

/-- An empty answer asks for nothing. -/
theorem namesAsked_of_blank (more : Text.trim line ∉ stopWords) (blank : Text.trim line = []) :
    namesAsked (line :: lines) = namesAsked lines := by
  rw [namesAsked, List.map_cons, List.takeWhile_cons_of_pos (by simpa using more),
    List.filter_cons_of_neg (by simp [blank])]
  rfl

/-- Any other answer asks for a grammar. -/
theorem namesAsked_of_name (more : Text.trim line ∉ stopWords) (named : Text.trim line ≠ []) :
    namesAsked (line :: lines) = Text.trim line :: namesAsked lines := by
  rw [namesAsked, List.map_cons, List.takeWhile_cons_of_pos (by simpa using more),
    List.filter_cons_of_pos (by simpa using named)]
  rfl

variable (source : Source σ) (s : σ)

/-- A stop word ends the asking. -/
theorem ask_of_stop (stop : Text.trim line ∈ stopWords) :
    ask files o source (line :: lines) s = ⟨[.out prompt], .ok (), s⟩ := by
  rw [ask, answer, if_pos (List.contains_iff_mem.2 stop)]

/-- After an empty answer the asking goes on. -/
theorem ask_of_blank (more : Text.trim line ∉ stopWords) (blank : Text.trim line = []) :
    let rest := ask files o source lines s
    ask files o source (line :: lines) s
      = ⟨.out prompt :: rest.outputs, rest.result, rest.source⟩ := by
  rw [ask, answer, if_neg (mt List.contains_iff_mem.1 more), if_pos (List.isEmpty_iff.2 blank)]
  rfl

section Named

variable (more : Text.trim line ∉ stopWords) (named : Text.trim line ≠ [])

include more named

/-- Any other answer is that of the grammar it names. -/
theorem answer_of_name :
    answer files o source line s
      = ⟨(perform files o source (.value (Text.trim line)) s).outputs,
        (perform files o source (.value (Text.trim line)) s).result.map fun _ => true,
        (perform files o source (.value (Text.trim line)) s).source⟩ := by
  rw [answer, if_neg (mt List.contains_iff_mem.1 more), if_neg (mt List.isEmpty_iff.1 named)]

/-- After a grammar that is handled the asking goes on. -/
theorem ask_of_handled {well : Bool}
    (h : (perform files o source (.value (Text.trim line)) s).result = .ok well) :
    let x := perform files o source (.value (Text.trim line)) s
    let rest := ask files o source lines x.source
    ask files o source (line :: lines) s
      = ⟨.out prompt :: (x.outputs ++ rest.outputs), rest.result, rest.source⟩ := by
  rw [ask, answer_of_name source s more named, h]
  rfl

/-- An error that is let through ends it. -/
theorem ask_of_error
    (h : (perform files o source (.value (Text.trim line)) s).result = .error e) :
    (ask files o source (line :: lines) s).result = .error e := by
  rw [ask, answer_of_name source s more named, h]
  rfl

end Named

end Asking

/-- **The asking goes on to its end** if no grammar that is asked for stops the
program. -/
theorem ask_of_not_escapes {lines : List Text}
    (h : ∀ name ∈ namesAsked lines, ∀ e, ¬ Escapes files o (.value name) e) (source : Source σ)
    (s : σ) :
    (ask files o source lines s).result = .ok ()
      ∧ Conversed files o source lines s (ask files o source lines s).outputs := by
  induction lines generalizing s with
  | nil => exact ⟨rfl, .ended s⟩
  | cons line lines ih =>
    by_cases stop : Text.trim line ∈ stopWords
    · rw [ask_of_stop source s stop]
      exact ⟨rfl, .stopped stop⟩
    by_cases blank : Text.trim line = []
    · rw [namesAsked_of_blank stop blank] at h
      obtain ⟨hresult, hrest⟩ := ih h s
      rw [ask_of_blank source s stop blank]
      exact ⟨hresult, .passed stop blank hrest⟩
    · rw [namesAsked_of_name stop blank, List.forall_mem_cons] at h
      obtain ⟨well, hperform, handled⟩ := perform_of_not_escapes h.1 source s
      obtain ⟨hresult, hrest⟩ := ih h.2 _
      rw [ask_of_handled source s stop blank hperform]
      exact ⟨hresult, .handled stop blank handled hrest⟩

/-- **The first grammar that stops the program ends the asking.** -/
theorem ask_of_escapes {lines before after : List Text} {name : Text}
    (hnames : namesAsked lines = before ++ name :: after)
    (hbefore : ∀ name ∈ before, ∀ e, ¬ Escapes files o (.value name) e)
    (h : Escapes files o (.value name) e) (source : Source σ) (s : σ) :
    (ask files o source lines s).result = .error e := by
  induction lines generalizing before s with
  | nil => exact absurd hnames.symm (List.append_ne_nil_of_right_ne_nil _ (List.cons_ne_nil _ _))
  | cons line lines ih =>
    by_cases stop : Text.trim line ∈ stopWords
    · rw [namesAsked_of_stop stop] at hnames
      exact absurd hnames.symm (List.append_ne_nil_of_right_ne_nil _ (List.cons_ne_nil _ _))
    by_cases blank : Text.trim line = []
    · rw [namesAsked_of_blank stop blank] at hnames
      rw [ask_of_blank source s stop blank]
      exact ih hnames hbefore s
    · rw [namesAsked_of_name stop blank] at hnames
      cases before with
      | nil =>
        obtain ⟨rfl, -⟩ := List.cons.inj hnames
        exact ask_of_error source s stop blank ((perform_error_iff source s).2 h)
      | cons first before =>
        obtain ⟨rfl, hrest⟩ := List.cons.inj hnames
        rw [List.forall_mem_cons] at hbefore
        obtain ⟨well, hperform, -⟩ := perform_of_not_escapes hbefore.1 source s
        rw [ask_of_handled source s stop blank hperform]
        exact ih hrest hbefore.2 _

/-! ## How the program ends -/

/-- **What the sentence program survives.** Whatever the options, the files and the
input, it ends in one of these ways. A void seed stops it at once. Given a
grammar, it is stopped by what `Escapes` lists, and by nothing else: otherwise it
ends with status 0, having printed all sentences, or with status 1, having
reported what was in their way. Given none, it is stopped by the first of the
grammars it is asked for that does so, and otherwise it ends with status 0,
having handled them all up to the first stop word or to the end of the input. -/
theorem run_outcome (files : FileTree) (o : Options) (source : Source σ)
    (seeded : Option Int → σ) (input : Text) :
    (∀ e, Given.get? o.seed .seed = .error e →
      run files o source seeded input = ([], .escaped e))
    ∧ ∀ seed, Given.get? o.seed .seed = .ok seed →
      (∀ grammar, o.grammar = some grammar →
        (∀ e, Escapes files o grammar e →
          (run files o source seeded input).2 = .escaped e)
        ∧ ((∀ e, ¬ Escapes files o grammar e) →
          ∃ well, Handled files o source grammar (seeded seed)
              (run files o source seeded input).1 well
            ∧ (run files o source seeded input).2 = .status (if well then 0 else 1)))
      ∧ (o.grammar = none →
        (∀ before name after e, namesAsked (inputLines input) = before ++ name :: after →
          (∀ name ∈ before, ∀ e, ¬ Escapes files o (.value name) e) →
          Escapes files o (.value name) e →
          (run files o source seeded input).2 = .escaped e)
        ∧ ((∀ name ∈ namesAsked (inputLines input), ∀ e, ¬ Escapes files o (.value name) e) →
          (run files o source seeded input).2 = .status 0
            ∧ Conversed files o source (inputLines input) (seeded seed)
              (run files o source seeded input).1)) := by
  refine ⟨fun e hseed => ?void, fun seed hseed => ⟨fun grammar hgrammar => ⟨fun e h => ?stopped,
    fun h => ?handled⟩, fun hnone => ⟨fun before name after e hnames hbefore h => ?broken,
    fun h => ?conversed⟩⟩⟩
  case void => rw [run, hseed]
  case stopped =>
    have hperform := (perform_error_iff source (seeded seed)).2 h
    rw [run, hseed, hgrammar]
    simp only [hperform]
  case handled =>
    obtain ⟨well, hperform, handled⟩ := perform_of_not_escapes h source (seeded seed)
    refine ⟨well, ?_⟩
    rw [run, hseed, hgrammar]
    cases well <;> simp only [hperform] <;> exact ⟨handled, rfl⟩
  case broken =>
    have hask := ask_of_escapes hnames hbefore h source (seeded seed)
    rw [run, hseed, hnone]
    simp only [hask]
  case conversed =>
    obtain ⟨hask, conversed⟩ := ask_of_not_escapes h source (seeded seed)
    rw [run, hseed, hnone]
    simp only [hask]
    exact ⟨trivial, conversed⟩

/-- A name that leads through a file ends the program, although no grammar has it:
the answer after it is not read. -/
theorem run_outcome_of_file_on_the_way :
    let files := FileTree.empty.plant ⟨.working 0, ["grammars".toList, "p.g".toList]⟩
      (.file (Utf8.encode "\x7b<start> a ;\x7d".toList))
    let o : Options := { seed := some (.value 1) }
    Options.ofArguments ["--seed".toList, "1".toList] = .ok o
      ∧ (run files o Random.Chooser.source (fun _ => .ofScript [0]) "p.g/x\nno\n".toList).2
        = .escaped (.file (.notDirectory "grammars/p.g/x.g".toList)) := by
  intro files o
  have fault : files.read "grammars/p.g/x.g".toList
      = .error (.notDirectory "grammars/p.g/x.g".toList) := by rfl
  have unreadable : Unreadable files (grammarPath "p.g/x".toList grammarDirectory)
      (.file (.notDirectory "grammars/p.g/x.g".toList)) := .barred fault fun p h => by cases h
  refine ⟨by rfl, ?_⟩
  obtain ⟨broken, -⟩ := ((run_outcome files o Random.Chooser.source (fun _ => .ofScript [0])
    "p.g/x\nno\n".toList).2 (some 1) rfl).2 rfl
  exact broken [] "p.g/x".toList [] _ (by decide) (by simp)
    (.file rfl (by decide) rfl rfl unreadable)

end Sentences

end SentenceForge

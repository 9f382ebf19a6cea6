import SentenceForge.Proofs.Program.Survival
import SentenceForge.Proofs.Text.Plain

/-!
# A conversation is its turns

The sentence program that asks for grammars takes the answers one at a time, and
nothing of a turn is left for the next one but what the source remembers. So what
it writes is what its turns write, one behind the other (`turns`), each from the
memory that the turns before left, whatever became of them. Nothing else is
needed of an answer than the file it names, and nothing at all of what is behind
a stop word.

A turn is a batch (`turn`): the sentences of the file that is named, which is read
anew for each. It keeps the sentences made before an error and the choices made
on the way to it.
-/

namespace SentenceForge

open Output

variable {σ : Type}

/-- Notices in a row are shown in a row. -/
theorem Output.ofNotices_append (verbose : Bool) (ns ns' : List Notice) :
    ofNotices verbose (ns ++ ns') = ofNotices verbose ns ++ ofNotices verbose ns' := by
  rw [ofNotices, List.filter_append, List.map_append]
  rfl

/-! ## Sentences in a row -/

namespace Batch

/-- **So many sentences in a row**, of anything that makes one. -/
def ofMaking (make : σ → Generation σ Text) : Nat → σ → Batch σ
  | 0, s => ⟨[], [], [], none, s⟩
  | n + 1, s =>
    let x := make s
    match x.result with
    | .error e => ⟨x.notices, x.choices, [], some e, x.source⟩
    | .ok sentence =>
      let rest := ofMaking make n x.source
      ⟨x.notices ++ rest.notices, x.choices ++ rest.choices, sentence :: rest.sentences,
        rest.stop, rest.source⟩

variable {make : σ → Generation σ Text}

/-- A batch makes the choices that its source answers with, if each sentence
does. -/
theorem answers_ofMaking {source : Source σ}
    (h : ∀ s, source.Answers s (make s).choices (make s).source) (n : Nat) (s : σ) :
    source.Answers s (ofMaking make n s).choices (ofMaking make n s).source := by
  induction n generalizing s with
  | zero => exact .nothing s
  | succ n ih =>
    rw [ofMaking]
    cases hx : (make s).result with
    | error e => exact h s
    | ok sentence => exact (h s).append (ih _)

/-- **Nothing stopped a batch exactly if it is complete.** -/
theorem stop_ofMaking_eq_none_iff (n : Nat) (s : σ) :
    (ofMaking make n s).stop = none ↔ (ofMaking make n s).sentences.length = n := by
  induction n generalizing s with
  | zero => exact iff_of_true rfl rfl
  | succ n ih =>
    rw [ofMaking]
    cases hx : (make s).result with
    | error e => exact iff_of_false (Option.some_ne_none e) (Nat.succ_ne_zero n).symm
    | ok sentence => exact (ih _).trans Nat.succ_inj.symm

end Batch

namespace Sentences

section

variable (files : FileTree) (o : Options) (source : Source σ)

/-! ## Turns -/

/-- **What is made for an answer**: of the grammar it names as many sentences as
were asked for, up to the first that cannot be made, and nothing if it is
empty. -/
def turn (answer : Text) (s : σ) : Batch σ :=
  if answer = [] then ⟨[], [], [], none, s⟩
  else
    match o.size.get .count with
    | .error e => ⟨[], [], [], some e, s⟩
    | .ok size => Batch.ofMaking (sentence files o source (.value answer)) size.toNat s

/-- **The turns of a conversation**: the answers in order, each with what is made
for it from what the source remembers then. -/
def turns : List Text → σ → List (Text × Batch σ)
  | [], _ => []
  | answer :: answers, s =>
    (answer, turn files o source answer s) :: turns answers (turn files o source answer s).source

/-- What the source remembers after some answers. -/
def memoryAfter (answers : List Text) (s : σ) : σ :=
  answers.foldl (fun s answer => (turn files o source answer s).source) s

end

/-- **What a turn prints**: its sentences, each on a line, behind a rule, and
another rule if it is complete. For an empty answer it prints nothing. -/
def printed (t : Text × Batch σ) : Text :=
  if t.1 = [] then [] else ruleLine ++ (corpusText t.2.sentences ++ closing t.2.outcome)

/-- **What a turn writes to the second stream**: the notices that are shown, and
the report of the error if there was one. -/
def messages (verbose : Bool) (t : Text × Batch σ) : Text :=
  stderr (ofNotices verbose t.2.notices)
    ++ stderr ((t.2.stop.bind (report? (.value t.1))).getD [])

/-- **The answers that have a turn**: those in front of the first stop word, without
the blanks around them. -/
def answersTaken (lines : List Text) : List Text :=
  (lines.map Text.trim).takeWhile fun answer => !stopWords.contains answer

/-- What ends the line of the last question: nothing does after a stop word. -/
def farewell (lines : List Text) : Text :=
  if lines.any fun line => stopWords.contains (Text.trim line) then [] else ['\n']

section Taking

variable {line : Text} {lines : List Text}

/-- A stop word has no turn, nor has what follows it. -/
theorem answersTaken_of_stop (stop : Text.trim line ∈ stopWords) :
    answersTaken (line :: lines) = [] := by
  rw [answersTaken, List.map_cons, List.takeWhile_cons_of_neg (by simpa using stop)]

/-- Any other answer has one. -/
theorem answersTaken_of_more (more : Text.trim line ∉ stopWords) :
    answersTaken (line :: lines) = Text.trim line :: answersTaken lines := by
  rw [answersTaken, List.map_cons, List.takeWhile_cons_of_pos (by simpa using more)]
  rfl

/-- A stop word leaves the line of its question as it is. -/
theorem farewell_of_stop (stop : Text.trim line ∈ stopWords) :
    farewell (line :: lines) = [] := by
  rw [farewell, List.any_cons, List.contains_iff_mem.2 stop, Bool.true_or]
  rfl

/-- Any other answer leaves the matter to those behind it. -/
theorem farewell_of_more (more : Text.trim line ∉ stopWords) :
    farewell (line :: lines) = farewell lines := by
  have hfirst : stopWords.contains (Text.trim line) = false :=
    Bool.eq_false_iff.2 (mt List.contains_iff_mem.1 more)
  rw [farewell, List.any_cons, hfirst, Bool.false_or]
  rfl

end Taking

/-! ## What a turn writes -/

section

variable (files : FileTree) (o : Options) (source : Source σ)

/-- A sentence makes the choices that its source answers with. -/
theorem answers_sentence (grammar : Given Text) (s : σ) :
    source.Answers s (sentence files o source grammar s).choices
      (sentence files o source grammar s).source := by
  unfold sentence
  cases grammar.get .grammarName with
  | error e => exact .nothing s
  | ok name =>
    cases o.directory.get .path with
    | error e => exact .nothing s
    | ok directory =>
      dsimp only
      cases hnamed : (namedGrammar files name directory).result with
      | error e =>
        rw [Generation.ofLogged_of_error hnamed]
        exact .nothing s
      | ok g =>
        rw [Generation.ofLogged_of_ok hnamed]
        cases o.maxDepth.get .depthLimit with
        | error e => exact .nothing s
        | ok limit => exact g.answers_run source o.strict limit.toNat 0 g.start s

/-- **A turn makes the choices that its source answers with**, stopped or not. -/
theorem answers_turn (answer : Text) (s : σ) :
    source.Answers s (turn files o source answer s).choices
      (turn files o source answer s).source := by
  unfold turn
  split
  · exact .nothing s
  · cases o.size.get .count with
    | error e => exact .nothing s
    | ok size => exact Batch.answers_ofMaking (answers_sentence files o source _) size.toNat s

/-- The choices of all turns are made in a row, by a source that remembers all of
them in the end. -/
theorem answers_turns (answers : List Text) (s : σ) :
    source.Answers s ((turns files o source answers s).flatMap (·.2.choices))
      (memoryAfter files o source answers s) := by
  induction answers generalizing s with
  | nil => exact .nothing s
  | cons answer answers ih => exact (answers_turn files o source answer s).append (ih _)

/-- **Sentences are printed as they are made**, with the closing rule if nothing
stopped them. -/
theorem printRest_eq (grammar : Given Text) (n : Nat) (s : σ) :
    let x := printRest files o source grammar n s
    let batch := Batch.ofMaking (sentence files o source grammar) n s
    stdout x.outputs = corpusText batch.sentences ++ closing batch.outcome
      ∧ stderr x.outputs = stderr (ofNotices o.verbose batch.notices)
      ∧ x.result = batch.outcome ∧ x.source = batch.source := by
  induction n generalizing s with
  | zero => exact ⟨(stdout_cons_line rule []).trans (List.append_nil _), rfl, rfl, rfl⟩
  | succ n ih =>
    rw [printRest, Batch.ofMaking]
    cases hx : (sentence files o source grammar s).result with
    | error e => exact ⟨stdout_ofNotices _ _, rfl, rfl, rfl⟩
    | ok text =>
      obtain ⟨hout, herr, hresult, hsource⟩ := ih (sentence files o source grammar s).source
      refine ⟨?_, ?_, hresult, hsource⟩
      · rw [stdout_append, stdout_ofNotices, stdout_cons_line, hout, List.nil_append,
          ← List.append_assoc]
        rfl
      · rw [stderr_append, ofNotices_append, stderr_append]
        exact congrArg _ herr

/-- **What is printed of a grammar is a turn.** -/
theorem print_eq {answer : Text} (named : answer ≠ []) (s : σ) :
    let x := print files o source (.value answer) s
    let batch := turn files o source answer s
    stdout x.outputs = printed (answer, batch)
      ∧ stderr x.outputs = stderr (ofNotices o.verbose batch.notices)
      ∧ x.result = batch.outcome ∧ x.source = batch.source := by
  simp only [printed, if_neg named]
  rw [turn, if_neg named, print]
  cases o.size.get .count with
  | error e => exact ⟨(stdout_cons_line rule []).trans rfl, rfl, rfl, rfl⟩
  | ok size =>
    obtain ⟨hout, herr, hresult, hsource⟩ :=
      printRest_eq files o source (.value answer) size.toNat s
    exact ⟨congrArg (ruleLine ++ ·) hout, herr, hresult, hsource⟩

end

section

variable {files : FileTree} {o : Options} (source : Source σ)

/-- **A turn that does not stop the program** is written with its messages, and the
program goes on from what the source remembers then. -/
theorem perform_eq {answer : Text} (named : answer ≠ [])
    (h : ∀ e, ¬ Escapes files o (.value answer) e) (s : σ) :
    let x := perform files o source (.value answer) s
    let batch := turn files o source answer s
    (∃ well, x.result = .ok well) ∧ stdout x.outputs = printed (answer, batch)
      ∧ stderr x.outputs = messages o.verbose (answer, batch) ∧ x.source = batch.source := by
  obtain ⟨hout, herr, hresult, hsource⟩ := print_eq files o source named s
  intro x batch
  cases hstop : batch.stop with
  | none =>
    have hprint : (print files o source (.value answer) s).result = .ok () := by
      rw [hresult, Batch.outcome, hstop]
    simp only [x, perform_of_printed hprint, messages, hstop]
    exact ⟨⟨true, rfl⟩, hout, herr.trans (List.append_nil _).symm, hsource⟩
  | some e =>
    have hprint : (print files o source (.value answer) s).result = .error e := by
      rw [hresult, Batch.outcome, hstop]
    cases hreport : report? (.value answer) e with
    | none =>
      -- an error that is not reported stops the program
      have hperform := congrArg Performance.result (perform_of_silent hprint hreport)
      exact absurd ((perform_error_iff source s).1 hperform) (h e)
    | some lines =>
      simp only [x, perform_of_reported hprint hreport, messages, hstop, Option.bind_some, hreport]
      rw [stdout_append, stderr_append, stdout_of_report? hreport, List.append_nil, herr]
      exact ⟨⟨false, rfl⟩, hout, rfl, hsource⟩

/-! ## The asking in turns -/

/-- **The asking writes its turns**, each behind a question, and one more question;
it ends with what the source remembers after the last turn. -/
theorem ask_eq {lines : List Text}
    (h : ∀ name ∈ namesAsked lines, ∀ e, ¬ Escapes files o (.value name) e) (s : σ) :
    let x := ask files o source lines s
    let ts := turns files o source (answersTaken lines) s
    x.result = .ok ()
      ∧ stdout x.outputs = ts.flatMap (prompt ++ printed ·) ++ (prompt ++ farewell lines)
      ∧ stderr x.outputs = ts.flatMap (messages o.verbose)
      ∧ x.source = memoryAfter files o source (answersTaken lines) s := by
  -- both the asking and the turns go on from the memory that a turn leaves, stopped or not
  induction lines generalizing s with
  | nil => exact ⟨rfl, rfl, rfl, rfl⟩
  | cons line lines ih =>
    by_cases stop : Text.trim line ∈ stopWords
    · rw [ask_of_stop source s stop, answersTaken_of_stop stop, farewell_of_stop stop]
      exact ⟨rfl, rfl, rfl, rfl⟩
    rw [answersTaken_of_more stop, farewell_of_more stop]
    by_cases blank : Text.trim line = []
    · rw [namesAsked_of_blank stop blank] at h
      obtain ⟨hresult, hout, herr, hsource⟩ := ih h s
      rw [ask_of_blank source s stop blank, blank]
      refine ⟨hresult, ?_, herr, hsource⟩
      show prompt ++ stdout _ = (prompt ++ [] ++ _) ++ _
      rw [hout, List.append_nil, List.append_assoc]
      rfl
    · rw [namesAsked_of_name stop blank, List.forall_mem_cons] at h
      obtain ⟨⟨well, hperform⟩, hturn, hmessages, hleft⟩ :=
        perform_eq source blank h.1 s
      obtain ⟨hresult, hout, herr, hsource⟩ := ih h.2
        (turn files o source (Text.trim line) s).source
      rw [ask_of_handled source s stop blank hperform, hleft]
      refine ⟨hresult, ?_, ?_, hsource⟩
      · show prompt ++ stdout (_ ++ _) = (prompt ++ printed _ ++ _) ++ _
        rw [stdout_append, hturn, hout, List.append_assoc, List.append_assoc]
        rfl
      · show stderr (_ ++ _) = messages _ _ ++ _
        rw [stderr_append, hmessages, herr]
        rfl

/-- **Asking on.** More answers, behind some without a stop word, are asked for where
these have ended, and from what the source remembers there. -/
theorem ask_append {lines : List Text} {s : σ}
    (ended : (ask files o source lines s).result = .ok ())
    (more : ∀ line ∈ lines, Text.trim line ∉ stopWords) (lines' : List Text) :
    ∃ before, (ask files o source lines s).outputs = before ++ [.out prompt, .line []]
      ∧ let rest := ask files o source lines' (ask files o source lines s).source
        ask files o source (lines ++ lines') s
          = ⟨before ++ rest.outputs, rest.result, rest.source⟩ := by
  induction lines generalizing s with
  | nil => exact ⟨[], rfl, rfl⟩
  | cons line lines ih =>
    rw [List.forall_mem_cons] at more
    by_cases blank : Text.trim line = []
    · rw [ask_of_blank source s more.1 blank] at ended ⊢
      obtain ⟨before, hask, happend⟩ := ih ended more.2
      refine ⟨.out prompt :: before, congrArg _ hask, ?_⟩
      rw [List.cons_append, ask_of_blank source s more.1 blank, happend]
      rfl
    · cases hperform : (perform files o source (.value (Text.trim line)) s).result with
      | error e =>
        rw [ask_of_error source s more.1 blank hperform] at ended
        cases ended
      | ok well =>
        rw [ask_of_handled source s more.1 blank hperform] at ended ⊢
        obtain ⟨before, hask, happend⟩ := ih ended more.2
        refine ⟨.out prompt
          :: ((perform files o source (.value (Text.trim line)) s).outputs ++ before), ?_, ?_⟩
        · rw [hask, List.cons_append, List.append_assoc]
        · rw [List.cons_append, ask_of_handled source s more.1 blank hperform, happend]
          simp only [List.cons_append, List.append_assoc]

end

/-! ## What a conversation depends on -/

/-- Files that have the same text, or the same error, where a name leads. -/
def SameFile (files files' : FileTree) (o : Options) (name : Text) : Prop :=
  ∀ directory, o.directory = .value directory →
    files.readText (grammarPath name directory) = files'.readText (grammarPath name directory)

section

variable {files files' : FileTree} {o : Options} (source : Source σ)

/-- **A sentence depends on the file that is named.** -/
theorem sentence_congr {name : Text} (h : SameFile files files' o name) :
    sentence files o source (.value name) = sentence files' o source (.value name) := by
  funext s
  unfold sentence
  cases hdir : o.directory with
  | void => rfl
  | value directory =>
    have hnamed : namedGrammar files name directory = namedGrammar files' name directory := by
      rw [namedGrammar, namedGrammar, grammarOfFile, grammarOfFile, h directory hdir]
    simp only [Given.get_value, hnamed]

/-- So does what is printed behind the rule. -/
theorem printRest_congr {grammar : Given Text}
    (h : sentence files o source grammar = sentence files' o source grammar) (n : Nat) (s : σ) :
    printRest files o source grammar n s = printRest files' o source grammar n s := by
  induction n generalizing s with
  | zero => rfl
  | succ n ih => rw [printRest, printRest, h, ih]

/-- And what becomes of the name. -/
theorem perform_congr {name : Text} (h : SameFile files files' o name) (s : σ) :
    perform files o source (.value name) s = perform files' o source (.value name) s := by
  have hprint : print files o source (.value name) s = print files' o source (.value name) s := by
    unfold print
    simp only [printRest_congr source (sentence_congr source h)]
  rw [perform, perform, hprint]

/-- An empty answer leads to nothing. -/
theorem answer_of_blank {line : Text} (more : Text.trim line ∉ stopWords)
    (blank : Text.trim line = []) (s : σ) : answer files o source line s = ⟨[], .ok true, s⟩ := by
  rw [answer, if_neg (mt List.contains_iff_mem.1 more), if_pos (List.isEmpty_iff.2 blank)]

/-- **Nothing behind a stop word is read.** The asking is the same whatever follows,
and with any files that are the same where the names before it lead. -/
theorem ask_congr_of_stop {before : List Text} {line : Text} (stop : Text.trim line ∈ stopWords)
    (h : ∀ name ∈ namesAsked before, SameFile files files' o name) (after after' : List Text)
    (s : σ) : ask files o source (before ++ line :: after) s
      = ask files' o source (before ++ line :: after') s := by
  induction before generalizing s with
  | nil => exact (ask_of_stop source s stop).trans (ask_of_stop source s stop).symm
  | cons first before ih =>
    rw [List.cons_append, List.cons_append]
    by_cases ends : Text.trim first ∈ stopWords
    · rw [ask_of_stop source s ends, ask_of_stop source s ends]
    -- the first answer leads to the same with either files, so the rest is asked from one memory
    by_cases blank : Text.trim first = []
    · rw [namesAsked_of_blank ends blank] at h
      rw [ask, ask, answer_of_blank source ends blank, answer_of_blank source ends blank]
      simp only [ih h]
    · rw [namesAsked_of_name ends blank, List.forall_mem_cons] at h
      rw [ask, ask, answer_of_name source s ends blank, answer_of_name source s ends blank,
        perform_congr source h.1]
      simp only [ih h.2]

end

/-! ## Inputs in a row -/

/-- **An input of whole lines**: nothing, or one that ends with a line feed. -/
def WholeLines (input : Text) : Prop := input = [] ∨ input.getLast? = some '\n'

/-- The lines of an input in front of which there are whole lines. -/
theorem inputLines_append {input : Text} (whole : WholeLines input) (input' : Text) :
    inputLines (input ++ input') = inputLines input ++ inputLines input' := by
  rcases whole with rfl | hlast
  · rfl
  obtain ⟨t, rfl⟩ := List.getLast?_eq_some_iff.1 hlast
  have hne := Text.pieces_ne_nil '\n' input'
  have hlines : inputLines (t ++ ['\n']) = Text.pieces '\n' t := by
    unfold inputLines
    rw [Text.pieces_append]
    simp [Text.pieces]
  rw [hlines, List.append_assoc, List.singleton_append]
  unfold inputLines
  dsimp only
  rw [Text.pieces_append, List.getLast?_append_of_ne_nil _ hne, List.dropLast_append_of_ne_nil hne]
  split <;> rfl

/-- The names that are asked for in answers behind some without a stop word. -/
theorem namesAsked_append {lines : List Text} (more : ∀ line ∈ lines, Text.trim line ∉ stopWords)
    (lines' : List Text) :
    namesAsked (lines ++ lines') = namesAsked lines ++ namesAsked lines' := by
  induction lines with
  | nil => rfl
  | cons line lines ih =>
    rw [List.forall_mem_cons] at more
    by_cases blank : Text.trim line = []
    · rw [List.cons_append, namesAsked_of_blank more.1 blank, namesAsked_of_blank more.1 blank,
        ih more.2]
    · rw [List.cons_append, namesAsked_of_name more.1 blank, namesAsked_of_name more.1 blank,
        ih more.2, List.cons_append]

/-! ## The program in turns -/

section

variable {files : FileTree} {o : Options}

/-- A name stops the program neither by an option nor by its file. -/
theorem not_escapes_of_readable {name : Text}
    (valued : ∀ need, ¬ Escapes files o (.value name) (.valueless need))
    (readable : ∀ directory, o.directory = .value directory →
      (∃ p, files.readText (grammarPath name directory) = .error (.file (.absent p)))
        ∨ ∃ text, files.readText (grammarPath name directory) = .ok text) (e : Error) :
    ¬ Escapes files o (.value name) e := by
  intro h
  cases h with
  | count void => exact valued _ (.count void)
  | name size asked void => cases void
  | directory size asked named void => exact valued _ (.directory size asked named void)
  | limit size asked made void => exact valued _ (.limit size asked made void)
  | file size asked named placed unreadable =>
    obtain rfl := Given.value.inj named
    rcases readable _ placed with ⟨p, habsent⟩ | ⟨text, hread⟩
    · obtain rfl := Except.error.inj (unreadable.readText_eq.symm.trans habsent)
      cases unreadable with
      | barred fault present => exact present p rfl
    · cases unreadable.readText_eq.symm.trans hread

/-- The program that asks, once its asking has ended. -/
theorem run_of_asked (source : Source σ) (seeded : Option Int → σ) {input : Text}
    (asking : o.grammar = none) {seed : Option Int} (hseed : Given.get? o.seed .seed = .ok seed)
    (ended : (ask files o source (inputLines input) (seeded seed)).result = .ok ()) :
    run files o source seeded input
      = ((ask files o source (inputLines input) (seeded seed)).outputs, .status 0) := by
  rw [run, hseed, asking]
  simp only [ended]

/-- A turn that was not stopped has all the sentences that were asked for. -/
theorem stop_eq_none_iff_of_mem_turns {source : Source σ} {n : Int} (size : o.size = .value n)
    {answers : List Text} {s : σ} {t : Text × Batch σ} (h : t ∈ turns files o source answers s)
    (named : t.1 ≠ []) : t.2.stop = none ↔ t.2.sentences.length = n.toNat := by
  induction answers generalizing s with
  | nil => cases h
  | cons answer answers ih =>
    rcases List.mem_cons.1 h with rfl | h
    · simp only [turn, if_neg named, size, Given.get_value]
      exact Batch.stop_ofMaking_eq_none_iff _ s
    · exact ih h

/-- **The program that asks is the sequence of its turns.** The options hold what
it comes to need, and every name that it is asked for leads to a file that is not
there or can be read as text. Then it ends well, having written the turns of its
answers, each behind a question, and one more question; and the source was asked
for the choices of the turns in a row, whether these were complete or not.

Nothing behind a stop word matters, nor does any file but those that were asked
for. And an input whose first lines say no stop word is run as these lines, up to
the last question, and then the rest, from what the source remembers after
them. -/
theorem run_in_turns (files : FileTree) (o : Options) (source : Source σ)
    (seeded : Option Int → σ) (input : Text) (asking : o.grammar = none) {seed : Option Int}
    (hseed : Given.get? o.seed .seed = .ok seed)
    (valued : ∀ name ∈ namesAsked (inputLines input), ∀ need,
      ¬ Escapes files o (.value name) (.valueless need))
    (readable : ∀ name ∈ namesAsked (inputLines input), ∀ directory,
      o.directory = .value directory →
        (∃ p, files.readText (grammarPath name directory) = .error (.file (.absent p)))
          ∨ ∃ text, files.readText (grammarPath name directory) = .ok text) :
    let answers := answersTaken (inputLines input)
    let ts := turns files o source answers (seeded seed)
    let x := run files o source seeded input
    (x.2 = .status 0
      ∧ stdout x.1 = ts.flatMap (prompt ++ printed ·) ++ (prompt ++ farewell (inputLines input))
      ∧ stderr x.1 = ts.flatMap (messages o.verbose)
      ∧ source.Answers (seeded seed) (ts.flatMap (·.2.choices))
        (memoryAfter files o source answers (seeded seed))
      ∧ ∀ t ∈ ts, t.1 ≠ [] → ∀ n, o.size = .value n →
        (t.2.stop = none ↔ t.2.sentences.length = n.toNat))
    ∧ (∀ before line after, inputLines input = before ++ line :: after →
      Text.trim line ∈ stopWords →
      ∀ files' input' after', inputLines input' = before ++ line :: after' →
      (∀ name ∈ namesAsked before, SameFile files files' o name) →
      run files' o source seeded input' = x)
    ∧ ∀ first rest, input = first ++ rest → WholeLines first →
      (∀ line ∈ inputLines first, Text.trim line ∉ stopWords) →
      ∃ before, run files o source seeded first = (before ++ [.out prompt, .line []], .status 0)
        ∧ let memory := memoryAfter files o source (answersTaken (inputLines first)) (seeded seed)
          let y := run files o source (fun _ => memory) rest
          x = (before ++ y.1, y.2) := by
  have survived : ∀ name ∈ namesAsked (inputLines input), ∀ e, ¬ Escapes files o (.value name) e :=
    fun name hname => not_escapes_of_readable (valued name hname) (readable name hname)
  obtain ⟨hresult, hout, herr, -⟩ := ask_eq source survived (seeded seed)
  have hrun := run_of_asked source seeded asking hseed hresult
  intro answers ts x
  refine ⟨⟨?_, ?_, ?_, answers_turns files o source answers _, fun t ht named n size => ?_⟩, ?_, ?_⟩
  · exact congrArg Prod.snd hrun
  · exact (congrArg (stdout ·.1) hrun).trans hout
  · exact (congrArg (stderr ·.1) hrun).trans herr
  · exact stop_eq_none_iff_of_mem_turns size ht named
  · intro before line after hlines stop files' input' after' hlines' same
    have hask := ask_congr_of_stop source stop same after after' (seeded seed)
    rw [← hlines, ← hlines'] at hask
    exact (run_of_asked source seeded asking hseed (hask ▸ hresult)).trans (hask ▸ hrun.symm)
  · rintro first rest rfl whole more
    rw [inputLines_append whole, namesAsked_append more] at survived
    rw [inputLines_append whole] at hresult
    obtain ⟨hfirst, -, -, hmemory⟩ := ask_eq source
      (fun name hname => survived name (List.mem_append_left _ hname)) (seeded seed)
    obtain ⟨before, hbefore, happend⟩ := ask_append source hfirst more (inputLines rest)
    refine ⟨before, (run_of_asked source seeded asking hseed hfirst).trans (by rw [hbefore]), ?_⟩
    intro memory y
    rw [happend, hmemory] at hresult
    have hrest : y = _ := run_of_asked source (fun _ => memory) asking hseed hresult
    have hx : x = _ := hrun
    rw [hx, hrest, inputLines_append whole, happend, hmemory]

/-- A grammar fails at its second sentence, an answer is empty and a file is not
there: the second half of the input is run from the two choices made. What
follows the stop word is not asked for, so another file there and another answer
change nothing. -/
theorem run_in_turns_of_refused :
    let files := FileTree.empty.plant ⟨.working 0, ["grammars".toList, "p.g".toList]⟩
      (.file (Utf8.encode "\x7b<start> a <x> ; b ;\x7d".toList))
    let o : Options := { size := .value 2, seed := some (.value 1), strict := true }
    let seeded := fun _ : Option Int => Random.Chooser.ofScript [1, 0, 1, 1]
    let first := " p \n\nlost\n".toList
    let rest := "p\nno\nhere".toList
    let x := run files o Random.Chooser.source seeded (first ++ rest)
    Options.ofArguments ["-n2".toList, "--seed=1".toList, "--strict".toList] = .ok o
      ∧ namesAsked (inputLines (first ++ rest)) = ["p".toList, "lost".toList, "p".toList]
      ∧ x.2 = .status 0
      ∧ stdout x.1 = prompt ++ ruleLine ++ "b\n".toList ++ prompt ++ prompt ++ ruleLine
        ++ prompt ++ ruleLine ++ "b\nb\n".toList ++ ruleLine ++ prompt
      ∧ stderr x.1 = ("ERROR rsg: could not generate from p: ".toList
          ++ "<x> is referenced but never defined\n".toList)
        ++ "No grammar file found: grammars/lost.g\n".toList
      ∧ run (files.plant ⟨.working 0, ["grammars".toList, "here.g".toList]⟩ (.file [])) o
          Random.Chooser.source seeded (first ++ "p\nno\np".toList) = x
      ∧ WholeLines first ∧ (∀ line ∈ inputLines first, Text.trim line ∉ stopWords)
      ∧ ∃ before, run files o Random.Chooser.source seeded first
          = (before ++ [.out prompt, .line []], .status 0)
        ∧ let y := run files o Random.Chooser.source (fun _ => .script [1, 0, 1, 1] 2) rest
          x = (before ++ y.1, y.2) := by
  intro files o seeded first rest x
  have names : namesAsked (inputLines (first ++ rest))
      = ["p".toList, "lost".toList, "p".toList] := by rfl
  have valued : ∀ name ∈ namesAsked (inputLines (first ++ rest)), ∀ need,
      ¬ Escapes files o (.value name) (.valueless need) := by
    intro name _ need h
    cases h with
    | count void => cases void
    | name _ _ void => cases void
    | directory _ _ _ void => cases void
    | limit _ _ _ void => cases void
    | file _ _ _ _ unreadable => cases unreadable
  have readable : ∀ name ∈ namesAsked (inputLines (first ++ rest)), ∀ directory,
      o.directory = .value directory →
        (∃ p, files.readText (grammarPath name directory) = .error (.file (.absent p)))
          ∨ ∃ text, files.readText (grammarPath name directory) = .ok text := by
    rw [names]
    rintro name hname directory ⟨⟩
    simp only [List.mem_cons, List.not_mem_nil, or_false] at hname
    rcases hname with rfl | rfl | rfl
    · exact .inr ⟨_, rfl⟩
    · exact .inl ⟨_, rfl⟩
    · exact .inr ⟨_, rfl⟩
  have same : ∀ name ∈ namesAsked [" p ".toList, [], "lost".toList, "p".toList], SameFile files
      (files.plant ⟨.working 0, ["grammars".toList, "here.g".toList]⟩ (.file [])) o name := by
    rintro name hname directory ⟨⟩
    have hname : name ∈ ["p".toList, "lost".toList, "p".toList] := hname
    simp only [List.mem_cons, List.not_mem_nil, or_false] at hname
    rcases hname with rfl | rfl | rfl <;> rfl
  obtain ⟨⟨hstatus, hout, herr, -⟩, hcut, hparts⟩ :=
    run_in_turns files o Random.Chooser.source seeded (first ++ rest) rfl rfl valued readable
  have whole : WholeLines first := .inr rfl
  have more : ∀ line ∈ inputLines first, Text.trim line ∉ stopWords := by decide
  exact ⟨by rfl, names, hstatus, hout.trans (by decide +kernel), herr.trans (by decide +kernel),
    hcut _ "no".toList ["here".toList] rfl (by decide) _ _ ["p".toList] rfl same, whole, more,
    hparts first rest rfl whole more⟩

/-- **A void option ends it all.** Where a seed was announced and none is there the
program does not even ask, although no name is asked for and the first answer is
a stop word. -/
theorem run_of_void_seed :
    let o : Options := { seed := some .void }
    let x := run FileTree.empty o Random.Chooser.source (fun _ => .first) "no\n".toList
    Options.ofArguments ["--seed=--".toList] = .ok o ∧ o.grammar = none
      ∧ namesAsked (inputLines "no\n".toList) = []
      ∧ x = ([], .escaped (.valueless .seed)) ∧ x.2 ≠ .status 0 ∧ stdout x.1 ≠ prompt := by
  intro o x
  have hx : x = ([], .escaped (.valueless .seed)) := by rfl
  refine ⟨by rfl, rfl, by rfl, hx, ?_, ?_⟩
  · rw [hx]
    exact fun h => nomatch h
  · rw [hx]
    decide

end

end Sentences

end SentenceForge

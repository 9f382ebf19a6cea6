import SentenceForge.CommandLine.Arguments
import SentenceForge.Files.GrammarFile
import SentenceForge.Program.Screen

/-!
# The sentence program

Given a grammar, the program prints sentences of it between two rules and
ends. Given none, it asks for grammars one after the other until it is
told to stop or its input ends. What its options were given is asked for
when it is needed, so a void option does no harm where it is not.

A grammar file that is not there and a fault of the grammar are reported,
and the program carries on: with exit status 1 if it was given the
grammar, with the next question if it asked for it. Every other error
stops it. Sentences printed before an error stay printed, and the closing
rule is missing.
-/

namespace SentenceForge.Sentences

/-! ## Options -/

/-- **The options** of the program. -/
structure Options where
  /-- The grammar, if one is given. -/
  grammar : Option (Given Text) := none
  /-- How many sentences to print of a grammar. -/
  size : Given Int := .value 1
  /-- The directory that grammars are looked up in. -/
  directory : Given Text := .value grammarDirectory
  /-- The seed of the random choices, if one is given. -/
  seed : Option (Given Int) := none
  /-- Whether a reference to an undefined name is an error. -/
  strict : Bool := false
  /-- The depth limit. -/
  maxDepth : Given Int := .value 200
  /-- Whether every notice is shown. -/
  verbose : Bool := false
  deriving DecidableEq, Repr

namespace Options

open CommandLine in
/-- The options as they are declared. -/
def specs : List (OptionSpec Options) :=
  [{ letter := some 'h', long := "--help".toList, effect := .help },
    { letter := some 'g', long := "--grammar".toList,
      effect := .text fun t o => { o with grammar := some t } },
    { letter := some 'n', long := "--n_sentences".toList,
      effect := .integer fun n o => { o with size := n } },
    { letter := none, long := "--grammar_dir".toList,
      effect := .text fun t o => { o with directory := t } },
    { letter := none, long := "--seed".toList,
      effect := .integer fun n o => { o with seed := some n } },
    { letter := none, long := "--strict".toList,
      effect := .flag fun o => { o with strict := true } },
    { letter := none, long := "--max_depth".toList,
      effect := .integer fun n o => { o with maxDepth := n } },
    { letter := some 'v', long := "--verbose".toList,
      effect := .flag fun o => { o with verbose := true } }]

/-- The options that arguments spell. -/
def ofArguments (arguments : List Text) :
    Except CommandLine.Halt Options :=
  CommandLine.parse specs {} arguments

end Options

/-! ## Printing -/

/-- The rule above and below sentences. -/
def rule : Text := List.replicate 67 '='

section

variable {σ : Type} (files : FileTree) (o : Options) (source : Source σ)

/-- **One sentence** of a grammar as the options have it expanded. -/
def sentence (grammar : Given Text) (s : σ) : Generation σ Text :=
  match grammar.get .grammarName, o.directory.get .path with
  | .error e, _ => .failed e s
  | .ok _, .error e => .failed e s
  | .ok name, .ok directory =>
    Generation.ofLogged (namedGrammar files name directory) s fun g =>
      match o.maxDepth.get .depthLimit with
      | .error e => .failed e s
      | .ok limit =>
        g.sentence source { strict := o.strict, maxDepth := some limit } s

/-- So many sentences, each on a line, and the closing rule. -/
def printRest (grammar : Given Text) : Nat → σ → Performance σ Unit
  | 0, s => ⟨[.line rule], .ok (), s⟩
  | n + 1, s =>
    let x := sentence files o source grammar s
    let notices := Output.ofNotices o.verbose x.notices
    match x.result with
    | .error e => ⟨notices, .error e, x.source⟩
    | .ok text =>
      let rest := printRest grammar n x.source
      ⟨notices ++ .line text :: rest.outputs, rest.result, rest.source⟩

/-- **The sentences of a grammar between rules.** -/
def print (grammar : Given Text) (s : σ) : Performance σ Unit :=
  match o.size.get .count with
  | .error e => ⟨[.line rule], .error e, s⟩
  | .ok size =>
    let rest := printRest files o source grammar size.toNat s
    ⟨.line rule :: rest.outputs, rest.result, rest.source⟩

/-- The report of an error that the program handles, and nothing for one
that it does not. -/
def report? (grammar : Given Text) (e : Error) : Option (List Output) :=
  match e, grammar with
  | .file (.absent path), _ =>
    some [.errorLine ("No grammar file found: ".toList ++ path)]
  | .grammar fault, .value name =>
    some (Output.ofNotices false [.failed name fault])
  | _, _ => none

/-- The sentences of a grammar with errors reported: whether there was
none. -/
def perform (grammar : Given Text) (s : σ) : Performance σ Bool :=
  let x := print files o source grammar s
  match x.result with
  | .ok () => ⟨x.outputs, .ok true, x.source⟩
  | .error e =>
    match report? grammar e with
    | some lines => ⟨x.outputs ++ lines, .ok false, x.source⟩
    | none => ⟨x.outputs, .error e, x.source⟩

/-! ## Asking -/

/-- The answers that end the asking. -/
def stopWords : List Text :=
  ["stop", "No", "no", "NO", "nO", "n", "N", "nah", "nay", "nope", "NOPE",
    "end"].map String.toList

/-- What is asked. -/
def prompt : Text :=
  "Enter the filename for random grammars or type No to end: ".toList

/-- What an answer leads to: whether the asking goes on. -/
def answer (line : Text) (s : σ) : Performance σ Bool :=
  let grammar := Text.trim line
  if stopWords.contains grammar then ⟨[], .ok false, s⟩
  else if grammar.isEmpty then ⟨[], .ok true, s⟩
  else
    let x := perform files o source (.value grammar) s
    ⟨x.outputs, x.result.map fun _ => true, x.source⟩

/-- **The asking**, given the answers. When they end so does the line of
the last question. -/
def ask : List Text → σ → Performance σ Unit
  | [], s => ⟨[.out prompt, .line []], .ok (), s⟩
  | line :: lines, s =>
    let x := answer files o source line s
    match x.result with
    | .error e => ⟨.out prompt :: x.outputs, .error e, x.source⟩
    | .ok false => ⟨.out prompt :: x.outputs, .ok (), x.source⟩
    | .ok true =>
      let rest := ask lines x.source
      ⟨.out prompt :: (x.outputs ++ rest.outputs), rest.result, rest.source⟩

end

/-- The lines of an input. What follows the last line feed is a line if it
is not empty. -/
def inputLines (input : Text) : List Text :=
  let lines := Text.pieces '\n' input
  if lines.getLast? == some [] then lines.dropLast else lines

/-- **The program** with its options, an input and a source that a seed
sets up: what it writes and how it ends. -/
def run {σ : Type} (files : FileTree) (o : Options) (source : Source σ)
    (seeded : Option Int → σ) (input : Text) : List Output × Ending :=
  match Given.get? o.seed .seed with
  | .error e => ([], .escaped e)
  | .ok seed =>
    match o.grammar with
    | some grammar =>
      let x := perform files o source grammar (seeded seed)
      match x.result with
      | .ok true => (x.outputs, .status 0)
      | .ok false => (x.outputs, .status 1)
      | .error e => (x.outputs, .escaped e)
    | none =>
      let x := ask files o source (inputLines input) (seeded seed)
      match x.result with
      | .ok () => (x.outputs, .status 0)
      | .error e => (x.outputs, .escaped e)

end SentenceForge.Sentences

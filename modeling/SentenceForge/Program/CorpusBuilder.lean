import SentenceForge.CommandLine.Arguments
import SentenceForge.Corpus
import SentenceForge.Program.Screen

/-!
# The corpus program

The program builds a corpus from a grammar, says that it begins and, if it
gets that far, what it wrote where. It handles no error: whatever stops
the building ends the program. An option that is void stops it where its
value is needed, which for the size and the depth limit is after the file
was emptied.
-/

namespace SentenceForge.CorpusBuilder

/-- **The options** of the program. -/
structure Options where
  /-- The grammar. -/
  grammar : Given Text := .value []
  /-- The directory that grammars are looked up in. -/
  directory : Given Text := .value grammarDirectory
  /-- The file to write. -/
  path : Given Text := .value defaultCorpusPath
  /-- How many sentences to write. -/
  size : Given Int := .value defaultCorpusSize
  /-- The seed of the random choices, if one is given. -/
  seed : Option (Given Int) := none
  /-- The depth limit. -/
  maxDepth : Given Int := .value 200
  deriving DecidableEq, Repr

namespace Options

open CommandLine in
/-- The options as they are declared. The grammar has to be given. -/
def specs : List (OptionSpec Options) :=
  [{ letter := some 'h', long := "--help".toList, effect := .help },
    { letter := none, long := "--grammar".toList, required := true,
      effect := .text fun t o => { o with grammar := t } },
    { letter := none, long := "--grammar_dir".toList,
      effect := .text fun t o => { o with directory := t } },
    { letter := none, long := "--res_path".toList,
      effect := .text fun t o => { o with path := t } },
    { letter := none, long := "--n_sentences".toList,
      effect := .integer fun n o => { o with size := n } },
    { letter := none, long := "--seed".toList,
      effect := .integer fun n o => { o with seed := some n } },
    { letter := none, long := "--max_depth".toList,
      effect := .integer fun n o => { o with maxDepth := n } }]

/-- The options that arguments spell. -/
def ofArguments (arguments : List Text) :
    Except CommandLine.Halt Options :=
  CommandLine.parse specs {} arguments

end Options

/-- The report of a corpus that was built. -/
def summary (size : Int) (grammar path : Text) : Text :=
  Text.ofInt size ++ " sentences from ".toList ++ grammar
    ++ " saved to ".toList ++ path

/-- The building as the options have it done, given the path of the
grammar. -/
def build {σ : Type} (files : FileTree) (o : Options) (grammar : Text)
    (source : Source σ) (s : σ) : CorpusRun σ :=
  match o.path.get .path with
  | .error e =>
    ⟨Generation.ofLogged (grammarOfFile files grammar) s fun _ =>
      .failed e s, files⟩
  | .ok path =>
    match o.size.get .count, o.maxDepth.get .depthLimit with
    | .ok size, .ok limit =>
      buildCorpus files grammar path size source
        { maxDepth := some limit } s
    | .ok size, .error e =>
      let x := buildCorpus files grammar path (min size 0) source {} s
      if 0 < size then x.stoppedBy e else x
    | .error e, _ =>
      (buildCorpus files grammar path 0 source {} s).stoppedBy e

/-- The notice that the building begins, if there is a size to tell. -/
def opening (o : Options) (grammar : Text) : List Notice :=
  match o.size with
  | .value size => [.building size grammar]
  | .void => []

/-- **The program** with its options and a source that a seed sets up:
what it writes, how it ends, and the file tree afterwards. -/
def run {σ : Type} (files : FileTree) (o : Options) (source : Source σ)
    (seeded : Option Int → σ) : List Output × Ending × FileTree :=
  match o.grammar.get .grammarName, o.directory.get .path with
  | .error e, _ => ([], .escaped e, files)
  | .ok _, .error e => ([], .escaped e, files)
  | .ok name, .ok directory =>
    let grammar := grammarPath name directory
    match Given.get? o.seed .seed with
    | .error e =>
      (Output.ofNotices false (opening o grammar), .escaped e, files)
    | .ok seed =>
      let x := build files o grammar source (seeded seed)
      let notices :=
        Output.ofNotices false (opening o grammar ++ x.generation.notices)
      let report := do
        let size ← x.generation.result
        let path ← o.path.get .path
        return summary size grammar path
      match report with
      | .ok text => (notices ++ [.line text], .status 0, x.files)
      | .error e => (notices, .escaped e, x.files)

end SentenceForge.CorpusBuilder

import SentenceForge.Files.Tree
import SentenceForge.Sentence.Basic

/-!
# Grammar files

A grammar is asked for by a name such as `poem`, and the file is then
`grammars/poem.g`. The extension is added if it is missing, and the
directory unless the name is absolute or begins with the directory
already – so a name that was completed once is completed.
-/

namespace SentenceForge

/-- The directory that grammars are looked up in. -/
def grammarDirectory : Text := "grammars".toList

/-- The extension of a grammar file. -/
def grammarExtension : Text := ".g".toList

/-- A file name with the extension. -/
def withExtension (filename : Text) : Text :=
  if grammarExtension.isSuffixOf filename then filename
  else filename ++ grammarExtension

/-- **The path of a grammar** that is asked for by a name. -/
def grammarPath (filename directory : Text) : Text :=
  let name := withExtension filename
  if Path.isAbsolute name || (Path.join directory []).isPrefixOf name then
    name
  else Path.join directory name

/-- A name with the extension is left alone. -/
theorem withExtension_of_isSuffixOf {filename : Text}
    (h : grammarExtension.isSuffixOf filename = true) :
    withExtension filename = filename := by
  simp [withExtension, h]

/-- **The grammar of a file**, if it defines the start. -/
def grammarOfFile (files : FileTree) (path : Text) : Logged Grammar :=
  match files.readText path with
  | .error e => .fail e
  | .ok text => Grammar.startable text

/-- The grammar that is asked for by a name, which notes the path it is
read from. -/
def namedGrammar (files : FileTree) (filename directory : Text) :
    Logged Grammar :=
  let path := grammarPath filename directory
  (grammarOfFile files path).noting (.reading path)

/-- **One sentence of a grammar file.** The file is read and its grammar
built anew for every sentence. -/
def sentenceOfFile {σ : Type} (files : FileTree)
    (filename directory : Text) (source : Source σ) (settings : Settings)
    (s : σ) : Generation σ Text :=
  Generation.ofLogged (namedGrammar files filename directory) s fun g =>
    g.sentence source settings s

end SentenceForge

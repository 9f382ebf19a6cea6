import SentenceForge.Program.CorpusBuilder
import SentenceForge.Program.Sentences
import SentenceForge.Random.Chooser

/-!
# The command line

The two programs on a real file system. Everything is decided elsewhere:
here the files that a program is about to look at are put into a tree, the
program is run on it, and what it wrote is written.

The first argument says which program it is. An interactive program is run
one answer at a time, so that the answer to a question is seen before the
next question.
-/

namespace SentenceForge.Main

open SentenceForge.Random (Chooser)

/-- The tree with what is found at a path. -/
def observe (files : FileTree) (path : Text) : IO FileTree := do
  match ← (IO.FS.readBinFile (String.ofList path)).toBaseIO with
  | .ok bytes => return files.plant (.ofPath path) (.file bytes.toList)
  | .error (.inappropriateType ..) =>
    return files.plant (.ofPath path) .directory
  | .error _ => return files

/-- The tree with what is found where a grammar is looked up. -/
def observeGrammar (files : FileTree) :
    Given Text → Given Text → IO FileTree
  | .value name, .value directory =>
    observe files (grammarPath name directory)
  | _, _ => return files

/-- Writes what a program wrote, in order. -/
def write (outputs : List Output) : IO Unit := do
  for o in outputs do
    match o with
    | .out text => IO.print (String.ofList text)
    | .err text => IO.eprint (String.ofList text)
  (← IO.getStdout).flush

/-- Ends as a program ends. -/
def finish : Ending → IO UInt32
  | .status code => return UInt32.ofNat code
  | .escaped e => do
    IO.eprintln (String.ofList e.message)
    return 1

/-- Ends because the arguments were not accepted. -/
def refuse (h : CommandLine.Halt) : IO UInt32 := do
  IO.eprintln (String.ofList ("error: ".toList ++ h.message))
  return if h = .help then 0 else 2

/-- The chooser for a seed, and one that nobody can foresee without. -/
def chooser : Option Int → IO Chooser
  | some seed => return .ofSeed seed
  | none => do
    let bytes ← IO.getRandomBytes 8
    return .ofSeed (bytes.toList.foldl (fun n b => 256 * n + b.toNat) 0 : Nat)

/-- The sentence program, asking for grammars. -/
partial def ask (o : Sentences.Options) (c : Chooser) : IO UInt32 := do
  write [.out Sentences.prompt]
  let line ← (← IO.getStdin).getLine
  if line.isEmpty then
    write [.line []]
    return 0
  let name := Text.trim line.toList
  let files ← observeGrammar .empty (.value name) o.directory
  let x := Sentences.answer files o Chooser.source line.toList c
  write x.outputs
  match x.result with
  | .ok true => ask o x.source
  | .ok false => return 0
  | .error e => finish (.escaped e)

/-- The sentence program. -/
def sentences (arguments : List Text) : IO UInt32 := do
  match Sentences.Options.ofArguments arguments with
  | .error h => refuse h
  | .ok o =>
    match Given.get? o.seed .seed with
    | .error e => finish (.escaped e)
    | .ok seed =>
      let c ← chooser seed
      match o.grammar with
      | none => ask o c
      | some grammar =>
        let files ← observeGrammar .empty grammar o.directory
        let (outputs, ending) :=
          Sentences.run files o Chooser.source (fun _ => c) []
        write outputs
        finish ending

/-- Writes the file at a path as it is in a tree, if it is not so in
another one. -/
def store (after before : FileTree) (path : Text) : IO Unit := do
  match after.find? path with
  | some (.file bytes) =>
    if before.find? path != some (.file bytes) then
      let directory := Path.directory path
      if !directory.isEmpty then
        IO.FS.createDirAll (String.ofList directory)
      IO.FS.writeBinFile (String.ofList path) (ByteArray.mk bytes.toArray)
  | _ => pure ()

/-- The corpus program. -/
def corpus (arguments : List Text) : IO UInt32 := do
  match CorpusBuilder.Options.ofArguments arguments with
  | .error h => refuse h
  | .ok o =>
    let c ← chooser (Given.get? o.seed .seed).toOption.join
    let grammarSeen ← observeGrammar .empty o.grammar o.directory
    let path := (o.path.get .path).toOption.getD []
    let files ← observe grammarSeen path
    let (outputs, ending, after) :=
      CorpusBuilder.run files o Chooser.source fun _ => c
    store after files path
    write outputs
    finish ending

end SentenceForge.Main

/-- The program that the first argument names. -/
def main (arguments : List String) : IO UInt32 := do
  match arguments.map String.toList with
  | program :: rest =>
    if program = "sentences".toList then SentenceForge.Main.sentences rest
    else if program = "corpus".toList then SentenceForge.Main.corpus rest
    else
      IO.eprintln "error: expected sentences or corpus"
      return 2
  | [] =>
    IO.eprintln "error: expected sentences or corpus"
    return 2

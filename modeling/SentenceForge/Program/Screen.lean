import SentenceForge.Error

/-!
# What a program shows

A program writes to two streams, and in which order it writes to both can
be seen by whoever runs it. So a program's output is one list in which
each entry says its stream, and the two streams are read off it.

Notices are written to the second stream, one to a line, those of the
least level only if the program was asked to be verbose.
-/

namespace SentenceForge

/-- Something a program writes. -/
inductive Output where
  /-- To its standard output. -/
  | out (text : Text)
  /-- To its standard error. -/
  | err (text : Text)
  deriving DecidableEq, Repr

namespace Output

/-- What is written to standard output. -/
def stdout (os : List Output) : Text :=
  os.flatMap fun
    | .out t => t
    | .err _ => []

/-- What is written to standard error. -/
def stderr (os : List Output) : Text :=
  os.flatMap fun
    | .out _ => []
    | .err t => t

/-- A line on standard output. -/
def line (t : Text) : Output := .out (t ++ ['\n'])

/-- A line on standard error. -/
def errorLine (t : Text) : Output := .err (t ++ ['\n'])

/-- The notices that are shown. -/
def ofNotices (verbose : Bool) (ns : List Notice) : List Output :=
  (ns.filter fun n => verbose || n.level != .debug).map fun n => .err n.line

/-- A line in front is in front on standard output. -/
@[simp] theorem stdout_cons_line (t : Text) (os : List Output) :
    stdout (line t :: os) = t ++ ['\n'] ++ stdout os := rfl

/-- Standard output goes through concatenation. -/
@[simp] theorem stdout_append (os os' : List Output) :
    stdout (os ++ os') = stdout os ++ stdout os' := List.flatMap_append

/-- Standard error goes through concatenation. -/
@[simp] theorem stderr_append (os os' : List Output) :
    stderr (os ++ os') = stderr os ++ stderr os' := List.flatMap_append

/-- Notices do not reach standard output. -/
@[simp] theorem stdout_ofNotices (verbose : Bool) (ns : List Notice) :
    stdout (ofNotices verbose ns) = [] := by
  simp [ofNotices, stdout, List.flatMap_map]

end Output

/-- **How a program ends.** -/
inductive Ending where
  /-- With an exit status. -/
  | status (code : Nat)
  /-- With an error that it does not handle. -/
  | escaped (error : Error)
  deriving DecidableEq, Repr

/-- **A part of a program's run**: what it wrote, its result or what
stopped it, and what the source remembers afterwards. -/
structure Performance (σ α : Type) where
  /-- What was written, in order. -/
  outputs : List Output
  /-- The result, or what stopped it. -/
  result : Except Error α
  /-- What the source remembers afterwards. -/
  source : σ

end SentenceForge

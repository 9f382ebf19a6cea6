import SentenceForge.Notice
import SentenceForge.Text.Utf8

/-!
# Errors

Everything that can stop the library: a fault of the grammar, an entry
with nothing in it, a file that cannot be read or written, bytes that are
no text, an unlimited expansion that ran out of room, and an option that
has no value when one is needed. One type for all of them, since callers
differ in which they handle and which they pass on, and that is a matter
of constructors.

`Logged` is a result together with the notices that were given on the way
to it. The notices are there whether the result is or not.
-/

namespace SentenceForge

/-! ## Files that cannot be used -/

/-- Why a path cannot be read or written. -/
inductive FileFault where
  /-- Nothing is there. -/
  | absent (path : Text)
  /-- The path goes on past a file. -/
  | notDirectory (path : Text)
  /-- A directory is there. -/
  | isDirectory (path : Text)
  /-- A directory cannot be made, as something is there. -/
  | occupied (path : Text)
  /-- A name on the path, or the path, is too long. -/
  | tooLong (path : Text)
  /-- The path holds a character that no path can hold. -/
  | nulCharacter
  deriving DecidableEq, Repr

namespace FileFault

/-- The message of a failure with a number, a reason and the path. -/
def numbered (number : Nat) (reason path : Text) : Text :=
  "[Errno ".toList ++ Text.ofNat number ++ "] ".toList ++ reason
    ++ ": ".toList ++ Text.quoted path

/-- The message of a file fault. -/
def message : FileFault → Text
  | .absent path => numbered 2 "No such file or directory".toList path
  | .notDirectory path => numbered 20 "Not a directory".toList path
  | .isDirectory path => numbered 21 "Is a directory".toList path
  | .occupied path => numbered 17 "File exists".toList path
  | .tooLong path => numbered 36 "File name too long".toList path
  | .nulCharacter => "embedded null byte".toList

end FileFault

/-! ## Values that are not there -/

/-- What a value is needed for. -/
inductive Need where
  /-- The name of a grammar, to which the extension may be added. -/
  | grammarName
  /-- A path that is joined or split. -/
  | path
  /-- A number of sentences to count up to. -/
  | count
  /-- The seed of the random choices. -/
  | seed
  /-- The limit that a depth is compared with. -/
  | depthLimit
  deriving DecidableEq, Repr

namespace Need

/-- The message for a value that is needed and not there. -/
def message : Need → Text
  | .grammarName => "'list' object has no attribute 'endswith'".toList
  | .path => "expected str, bytes or os.PathLike object, not list".toList
  | .count => "'list' object cannot be interpreted as an integer".toList
  | .seed =>
    "The only supported seed types are: None,\n".toList
      ++ "int, float, str, bytes, and bytearray.".toList
  | .depthLimit =>
    "'>=' not supported between instances of 'int' and 'list'".toList

end Need

/-! ## Errors -/

/-- **An error** of the library. -/
inductive Error where
  /-- A fault of the grammar or of its expansion. -/
  | grammar (fault : Fault)
  /-- An entry without even a name. -/
  | emptyEntry
  /-- A file that cannot be read or written. -/
  | file (fault : FileFault)
  /-- A file whose bytes are no text. -/
  | encoding (fault : Utf8.Fault)
  /-- An expansion without a depth limit that nested past its headroom. -/
  | exhausted (name : Text)
  /-- An option without a value where one is needed. -/
  | valueless (need : Need)
  deriving DecidableEq, Repr

namespace Error

/-- The message of an error. -/
def message : Error → Text
  | .grammar fault => fault.message
  | .emptyEntry => "list index out of range".toList
  | .file fault => fault.message
  | .encoding fault => fault.message
  | .exhausted _ => "maximum recursion depth exceeded".toList
  | .valueless need => need.message

end Error

/-! ## Logged results -/

/-- **A result with the notices given on the way to it.** -/
structure Logged (α : Type) where
  /-- The notices in order. -/
  notices : List Notice
  /-- The result, or what stopped it. -/
  result : Except Error α

namespace Logged

variable {α β : Type}

/-- A result without notices. -/
def ok (a : α) : Logged α := ⟨[], .ok a⟩

/-- An error without notices. -/
def fail (e : Error) : Logged α := ⟨[], .error e⟩

/-- A notice before the rest. -/
def noting (n : Notice) (rest : Logged α) : Logged α :=
  ⟨n :: rest.notices, rest.result⟩

/-- The next step of a result, unless there is none. -/
def andThen (x : Logged α) (f : α → Logged β) : Logged β :=
  match x.result with
  | .error e => ⟨x.notices, .error e⟩
  | .ok a => ⟨x.notices ++ (f a).notices, (f a).result⟩

/-- A result of two steps is one of the second step, on a result of the
first. -/
theorem andThen_result_ok {x : Logged α} {f : α → Logged β} {b : β}
    (h : (x.andThen f).result = .ok b) :
    ∃ a, x.result = .ok a ∧ (f a).result = .ok b := by
  unfold andThen at h
  cases hx : x.result with
  | error e =>
    rw [hx] at h
    cases h
  | ok a =>
    rw [hx] at h
    exact ⟨a, rfl, h⟩

end Logged

end SentenceForge

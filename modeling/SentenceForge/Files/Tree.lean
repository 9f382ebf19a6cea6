import SentenceForge.Error
import SentenceForge.Files.Path
import SentenceForge.Table
import SentenceForge.Text.LineEnds

/-!
# File trees

What a program sees of the file system is a tree: places with a directory
or a file at them. A place is a list of names below an anchor, and a path
leads to a place when it is walked name by name from the working
directory. Walking matters, since `..` after a file or after nothing is an
error and not the place before it.

The tree holds what lies below the working directory. What lies above it
is known to be directories and otherwise taken to be empty, and so is the
root that absolute paths start from.

A file is its bytes. Reading one as text decodes them and unifies the line
ends; writing text encodes it and leaves the line ends alone.
-/

namespace SentenceForge

/-- Where a place is counted from. -/
inductive Anchor where
  /-- The directory so many levels above the working directory. -/
  | working (above : Nat)
  /-- The root. -/
  | root
  deriving DecidableEq, Repr

namespace Anchor

/-- A number that tells anchors apart. -/
def rank : Anchor → Nat
  | .root => 0
  | .working above => above + 1

/-- Anchors of one rank are the same. -/
theorem eq_of_rank_eq {a b : Anchor} (h : a.rank = b.rank) : a = b := by
  cases a <;> cases b <;> simp_all [rank]

end Anchor

/-- **A place in a file tree**: an anchor and the names below it. -/
structure Place where
  /-- Where the names are counted from. -/
  anchor : Anchor
  /-- The names from the anchor down. -/
  names : List Text
  deriving DecidableEq, Repr

namespace Place

/-- The working directory. -/
def here : Place := ⟨.working 0, []⟩

/-- The root. -/
def root : Place := ⟨.root, []⟩

/-- The place of a name in a directory. -/
def child (p : Place) (name : Text) : Place := ⟨p.anchor, p.names ++ [name]⟩

/-- The directory of a place. Above an anchor that is the root it is the
root itself. -/
def parent (p : Place) : Place :=
  match p.names, p.anchor with
  | [], .root => p
  | [], .working above => ⟨.working (above + 1), []⟩
  | name :: names, anchor => ⟨anchor, (name :: names).dropLast⟩

/-- The place that a name on a path leads to from a place: two dots lead
to its directory, and one dot or nothing leads nowhere else. -/
def step (p : Place) (name : Text) : Place :=
  if name.isEmpty || name == ['.'] then p
  else if name == ['.', '.'] then p.parent
  else p.child name

/-- The place that a path is counted from. -/
def origin (path : Text) : Place :=
  if Path.isAbsolute path then root else here

/-- The place a path leads to if there are directories all along it. -/
def ofPath (path : Text) : Place :=
  (Text.pieces '/' path).foldl step (origin path)

/-- The path of a place below the working directory. -/
def path (p : Place) : Text := Text.joinWith ['/'] p.names

/-- Places are compared by their anchors first. -/
instance : Ord Place :=
  ⟨compareLex (compareOn (·.anchor.rank)) (compareOn (·.names))⟩

instance : Std.TransOrd Place :=
  inferInstanceAs (Std.TransCmp
    (compareLex (compareOn fun p : Place => p.anchor.rank)
      (compareOn fun p : Place => p.names)))

/-- Places that compare equal are equal. -/
theorem eq_of_compare {p q : Place} (h : compare p q = .eq) : p = q := by
  obtain ⟨ha, hn⟩ := Ordering.then_eq_eq.1 h
  cases p
  cases q
  obtain rfl := Anchor.eq_of_rank_eq (Std.compare_eq_iff_eq.1 ha)
  obtain rfl := Std.compare_eq_iff_eq.1 hn
  rfl

instance : Std.LawfulEqOrd Place := ⟨eq_of_compare⟩

end Place

/-- What is at a place. -/
inductive FileNode where
  /-- A directory. -/
  | directory
  /-- A file with its bytes. -/
  | file (bytes : List UInt8)
  deriving DecidableEq, Repr

/-- **A file tree**: what is at which place, in the order in which it came
to be there. -/
structure FileTree where
  /-- The places with something at them, the anchors apart. -/
  nodes : Table Place FileNode

namespace FileTree

/-- What is at a place. -/
def at? (t : FileTree) (p : Place) : Option FileNode :=
  if p.names.isEmpty then some .directory else t.nodes.get? p

/-- The tree with something put at a place. -/
def put (t : FileTree) (p : Place) (n : FileNode) : FileTree :=
  ⟨t.nodes.put p n⟩

/-- **What was put at a place is there**, unless the place is an anchor,
which stays a directory. -/
theorem at?_put_self (t : FileTree) {p : Place} (n : FileNode)
    (h : p.names.isEmpty = false) : (t.put p n).at? p = some n := by
  simp [at?, put, h]

/-- **Nothing else changes.** -/
theorem at?_put_of_ne (t : FileTree) {p q : Place} (n : FileNode)
    (h : p ≠ q) : (t.put p n).at? q = t.at? q := by
  simp [at?, put, Table.get?_put_of_ne _ _ h]

/-! ## Walking -/

/-- The greatest number of bytes of a name. -/
def maxNameBytes : Nat := 255

/-- The number of bytes that a path may not reach. -/
def pathBytesBound : Nat := 4096

/-- What is wrong with a path in any tree. -/
def pathFault? (path : Text) : Option FileFault :=
  if path.contains (Char.ofNat 0) then some .nulCharacter
  else if path.isEmpty then some (.absent path)
  else if pathBytesBound ≤ (Utf8.encode path).length then
    some (.tooLong path)
  else none

/-- Whether a name is too long to be one. -/
def nameTooLong (name : Text) : Bool :=
  maxNameBytes < (Utf8.encode name).length

/-- The place that the names of a path lead to from a directory, with the
path for the fault if they do not. Every name but the last has to be that
of a directory. -/
def walk (t : FileTree) (path : Text) : Place → List Text → Except FileFault Place
  | p, [] => .ok p
  | p, name :: names =>
    if nameTooLong name then .error (.tooLong path)
    else
      match names, t.at? (p.step name) with
      | [], _ => .ok (p.step name)
      | _ :: _, none => .error (.absent path)
      | _ :: _, some (.file _) => .error (.notDirectory path)
      | _ :: _, some .directory => walk t path (p.step name) names

/-- **The place a path leads to**, at which there may be nothing. -/
def locate (t : FileTree) (path : Text) : Except FileFault Place :=
  match pathFault? path with
  | some e => .error e
  | none => walk t path (.origin path) (Text.pieces '/' path)

/-- What is at the end of a path, if it leads anywhere. -/
def find? (t : FileTree) (path : Text) : Option FileNode :=
  match t.locate path with
  | .ok p => t.at? p
  | .error _ => none

/-! ## Reading and writing -/

/-- **The bytes of the file at a path.** -/
def read (t : FileTree) (path : Text) : Except FileFault (List UInt8) :=
  match t.locate path with
  | .error e => .error e
  | .ok p =>
    match t.at? p with
    | none => .error (.absent path)
    | some .directory => .error (.isDirectory path)
    | some (.file bytes) => .ok bytes

/-- The place of the file that writing to a path writes. A path that ends
in a slash names a directory, there or not. -/
def writable (t : FileTree) (path : Text) : Except FileFault Place :=
  match t.locate path with
  | .error e => .error e
  | .ok p =>
    if t.at? p = some .directory || path.getLast? == some '/' then
      .error (.isDirectory path)
    else .ok p

/-- The tree with a text written to the file at a place, instead of what
the file held. -/
def writeText (t : FileTree) (p : Place) (text : Text) : FileTree :=
  t.put p (.file (Utf8.encode text))

/-- **The text of the file at a path.** -/
def readText (t : FileTree) (path : Text) : Except Error Text :=
  match t.read path with
  | .error e => .error (.file e)
  | .ok bytes =>
    match Utf8.decode bytes with
    | .error e => .error (.encoding e)
    | .ok text => .ok (Text.unifyLineEnds text)

/-! ## Directories -/

/-- The tree with directories at the places that the names of a path lead
to from a place, given whether one had to be made before and the text of
the path up to here. The directories made before a failure stay, and the
failure is that of the path up to the name it came at. A file stands in
the way of the name that follows it, or of the whole path if none does;
only one dot after a directory that had to be made is passed over without
a look at the tree. -/
def ensureAlong :
    FileTree → Place → (made : Bool) → (before : Text) → List Text →
      FileTree × Option FileFault
  | t, _, _, _, [] => (t, none)
  | t, p, made, before, name :: names =>
    let upTo := before ++ name
    if name.isEmpty || (made && name == ['.']) then
      ensureAlong t p made (upTo ++ ['/']) names
    else
      match pathFault? upTo, t.at? p with
      | some e, _ => (t, some e)
      | none, none => (t, some (.absent upTo))
      | none, some (.file _) => (t, some (.notDirectory upTo))
      | none, some .directory =>
        if nameTooLong name then (t, some (.tooLong upTo))
        else
          let q := p.step name
          match t.at? q, names with
          | none, _ =>
            ensureAlong (t.put q .directory) q true (upTo ++ ['/']) names
          | some (.file _), [] => (t, some (.occupied upTo))
          | some _, _ => ensureAlong t q made (upTo ++ ['/']) names

/-- **The tree with directories along a path** and what failed, if
anything. -/
def ensureDirectories (t : FileTree) (path : Text) :
    FileTree × Option FileFault :=
  ensureAlong t (.origin path) false [] (Text.pieces '/' path)

/-! ## Making and comparing trees -/

/-- The tree with nothing in it. -/
def empty : FileTree := ⟨.empty⟩

/-- The tree with something at a place, and directories on the way to
it. -/
def plant (t : FileTree) (p : Place) (n : FileNode) : FileTree :=
  let withDirectories :=
    (List.range p.names.length).foldl
      (fun t k =>
        let q : Place := ⟨p.anchor, p.names.take k⟩
        if (t.at? q).isSome then t else t.put q .directory) t
  withDirectories.put p n

/-- The files of a tree below the working directory that are not the same
in another one, each with its path and its bytes. -/
def changedSince (after before : FileTree) : List (Text × List UInt8) :=
  after.nodes.toList.filterMap fun e =>
    match e.1.anchor, e.2 with
    | .working 0, .file bytes =>
      if before.at? e.1 = some e.2 then none else some (e.1.path, bytes)
    | _, _ => none

end FileTree

end SentenceForge

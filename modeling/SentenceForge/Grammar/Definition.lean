import SentenceForge.Error
import SentenceForge.Grammar.Basic
import SentenceForge.Grammar.Block

/-!
# Definitions

A block defines a name: it opens with the name, which ends at the first
`>`, and goes on with bodies that semicolons end. Blanks do not matter
beyond keeping words apart. An empty body is a body – it expands to
nothing – but what follows the last semicolon is a body only if it is not
blank, since a semicolon ends a body and does not open one.

The name is cut off with the semicolons: one is inserted right after it,
so that a name is a fragment like any other. A name that holds a semicolon
of its own is thereby cut short, and a name cut short is malformed, as is
one that does not open with `<` or has nothing between its brackets.
-/

namespace SentenceForge

/-- **A definition**: a name and its bodies, as written but with plain
blanks. -/
structure Definition where
  /-- The name. -/
  name : Text
  /-- The bodies in order. -/
  bodies : List Text
  deriving DecidableEq, Repr

/-- A definition as a list of texts, the name first. An entry made by hand
may be empty, which no definition is. -/
abbrev Entry := List Text

namespace Definition

/-- The entry of a definition. -/
def entry (d : Definition) : Entry := d.name :: d.bodies

/-- Whether a name is of the form of a name: a reference with something
between its brackets. -/
def isName (name : Text) : Bool := 3 ≤ name.length && isReference name

/-- The fragments without the last one, if that one is blank and not the
only one. -/
def withoutBlankEnd (fragments : List Text) : List Text :=
  if 1 < fragments.length && fragments.getLast? == some [] then
    fragments.dropLast
  else fragments

/-- The fragments of a block whose name ends before `rest`: the name and
the bodies, each in its plain form. -/
def fragments (name rest : Text) : List Text :=
  withoutBlankEnd
    ((Text.pieces ';' (Text.plain (name ++ ';' :: rest))).map Text.trim)

/-- **The definition a block makes**, or the fault in it. -/
def ofBlock (block : Text) : Except Fault Definition :=
  match block.dropWhile (· != '>') with
  | [] => .error (.unnamed block)
  | close :: rest =>
    match fragments (block.takeWhile (· != '>') ++ [close]) rest with
    | [] => .error (.malformedName [])
    | name :: bodies =>
      if isName name then .ok ⟨name, bodies⟩
      else .error (.malformedName name)

/-- The definitions of a text, or the fault in the first block that has
one. -/
def ofText (text : Text) : Except Fault (List Definition) :=
  (blocks text).mapM ofBlock

/-- A name that is accepted has the form of a name. -/
theorem isName_of_ofBlock {block : Text} {d : Definition}
    (h : ofBlock block = .ok d) : isName d.name = true := by
  unfold ofBlock at h
  split at h
  · simp at h
  · split at h
    · simp at h
    · split at h
      · next hn =>
        injection h with h
        subst h
        exact hn
      · simp at h

end Definition

end SentenceForge

import SentenceForge.Grammar.Basic

/-!
# Writing a grammar

A grammar is written as the blocks of its names, in the order in which the
names first occur: the name as written, and each body as its tokens with
single spaces between them, closed by a semicolon of its own. The last
semicolon is not left out even where it could be, so that an empty last
body is seen to be one.

A name without productions is not written. It is in no list of the
grammar, and reading the written form does not bring it back.
-/

namespace SentenceForge

/-- Tokens with single spaces between them. -/
def spaced (tokens : List Text) : Text :=
  (tokens.intersperse [' ']).flatten

/-- A body as written: a space, the tokens, a space and a semicolon. -/
def writtenBody (tokens : List Text) : Text :=
  ' ' :: spaced tokens ++ [' ', ';']

/-- What stands between the braces for a name with bodies. -/
def writtenDefinition (name : Text) (bodies : List (List Text)) : Text :=
  name ++ bodies.flatMap writtenBody

/-- A name with its bodies as a block. -/
def writtenBlock (name : Text) (bodies : List (List Text)) : Text :=
  '\x7b' :: writtenDefinition name bodies ++ ['\x7d']

/-- **The written form** of names with their bodies, in order. -/
def written (entries : List (Text × List (List Text))) : Text :=
  entries.flatMap fun e => writtenBlock e.1 e.2

/-- **The written form of a grammar.** -/
def Grammar.written (g : Grammar) : Text :=
  SentenceForge.written g.tokenLists.toList

/-- The written form of a grammar with an empty body. -/
example :
    written [("<start>".toList, [["a".toList, "<b>".toList], []])]
      = "\x7b<start> a <b> ;  ;\x7d".toList := by
  decide

end SentenceForge

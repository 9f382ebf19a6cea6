import SentenceForge.Fault

/-!
# Notices

What the library has to say besides its results: that a name was defined
twice, that a reference led nowhere, which file is being read. A notice is
its cause; its level, the channel it is said on and its wording follow
from the cause.
-/

namespace SentenceForge

/-- How much a notice matters. -/
inductive Level where
  /-- Of interest when looking for a mistake. -/
  | debug
  /-- The normal course of things. -/
  | info
  /-- Something that is probably not meant. -/
  | warning
  /-- Something that failed. -/
  | error
  deriving DecidableEq, Repr

namespace Level

/-- The name of a level. -/
def label : Level → Text
  | .debug => "DEBUG".toList
  | .info => "INFO".toList
  | .warning => "WARNING".toList
  | .error => "ERROR".toList

end Level

/-- Who says a notice. -/
inductive Channel where
  /-- The reader of grammars. -/
  | grammar
  /-- The expansion. -/
  | expansion
  /-- The sentence program. -/
  | sentences
  /-- The corpus program. -/
  | corpus
  deriving DecidableEq, Repr

namespace Channel

/-- The name of a channel. -/
def label : Channel → Text
  | .grammar => "sentence_builder.grammar".toList
  | .expansion => "sentence_builder.rsg".toList
  | .sentences => "rsg".toList
  | .corpus => "build_rsg_data".toList

end Channel

/-- **A notice.** -/
inductive Notice where
  /-- A definition replaces an earlier one of the same name. -/
  | redefined (name : Text)
  /-- A grammar was built from so many definitions with so many
  productions. -/
  | built (definitions productions : Nat)
  /-- A reference to an undefined name was expanded to nothing. -/
  | skipped (name : Text)
  /-- A grammar file is read. -/
  | reading (path : Text)
  /-- No sentences could be made from a grammar. -/
  | failed (grammar : Text) (fault : Fault)
  /-- A corpus of so many sentences is begun. -/
  | building (count : Int) (path : Text)
  deriving DecidableEq, Repr

namespace Notice

/-- The level of a notice. -/
def level : Notice → Level
  | .redefined _ => .warning
  | .built _ _ => .debug
  | .skipped _ => .debug
  | .reading _ => .debug
  | .failed _ _ => .error
  | .building _ _ => .info

/-- The channel of a notice. -/
def channel : Notice → Channel
  | .redefined _ => .grammar
  | .built _ _ => .grammar
  | .skipped _ => .expansion
  | .reading _ => .expansion
  | .failed _ _ => .sentences
  | .building _ _ => .corpus

/-- The wording of a notice. -/
def message : Notice → Text
  | .redefined name =>
    name ++ " is defined more than once, keeping the last definition".toList
  | .built definitions productions =>
    "built grammar with ".toList ++ Text.ofNat definitions
      ++ " non-terminals, ".toList ++ Text.ofNat productions
      ++ " productions".toList
  | .skipped name =>
    "no definition for ".toList ++ name ++ ", expanding to nothing".toList
  | .reading path => "reading grammar from ".toList ++ path
  | .failed grammar fault =>
    "could not generate from ".toList ++ grammar ++ ": ".toList
      ++ fault.message
  | .building count path =>
    "building ".toList ++ Text.ofInt count ++ " sentences from ".toList
      ++ path

/-- A notice as a line. -/
def line (n : Notice) : Text :=
  n.level.label ++ ' ' :: n.channel.label ++ ": ".toList ++ n.message
    ++ ['\n']

end Notice

end SentenceForge

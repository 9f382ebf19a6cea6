import SentenceForge.Text.Numeral
import SentenceForge.Text.Quoted

/-!
# Faults of a grammar

Five things can be wrong with a grammar or with an expansion of it, and a
`Fault` is one of them with what it is about. The wording is apart from
the cause: a fault is reported by a `Report`, which belongs to one of five
families and carries details, and the message is read off the report.

The families are wider than the causes. A block without a name and a block
with a malformed one are both faults of syntax, and a report can be made
of any details without a fault behind it.
-/

namespace SentenceForge

/-- **A fault** of a grammar or of an expansion. -/
inductive Fault where
  /-- A block that does not name what it defines. -/
  | unnamed (block : Text)
  /-- A block whose name is not of the form of a name. -/
  | malformedName (name : Text)
  /-- A grammar that does not define the name sentences start from. -/
  | noStart (name : Text)
  /-- A name that is expanded but not defined. -/
  | undefined (name : Text)
  /-- A name that was reached at the depth limit. -/
  | tooDeep (name : Text) (limit : Int)
  deriving DecidableEq, Repr

/-! ## Reports -/

/-- A detail of a report. -/
inductive Detail where
  /-- A text. -/
  | text (t : Text)
  /-- A number. -/
  | number (n : Int)
  deriving DecidableEq, Repr

namespace Detail

/-- A detail as it stands in a sentence. -/
def shown : Detail → Text
  | .text t => t
  | .number n => Text.ofInt n

/-- A detail as it stands in a list. -/
def listed : Detail → Text
  | .text t => Text.quoted t
  | .number n => Text.ofInt n

/-- Details without a sentence around them: nothing, the only one as it
is, or a list of several in parentheses. -/
def bare : List Detail → Text
  | [] => []
  | [d] => d.shown
  | ds => '(' :: (Text.joinWith ", ".toList (ds.map listed) ++ [')'])

end Detail

/-- **A report** of a fault, by family. -/
inductive Report where
  /-- A fault of no particular family. -/
  | general (details : List Detail)
  /-- A fault of syntax. -/
  | badSyntax (details : List Detail)
  /-- A grammar without a start. -/
  | noStart (name : Detail)
  /-- A reference to an undefined name. -/
  | undefined (name : Detail)
  /-- An expansion that went too deep. -/
  | tooDeep (name limit : Detail)
  deriving DecidableEq, Repr

/-- The kinds of error a report counts as. A handler for a kind handles
every report that counts as it. -/
inductive ErrorKind where
  /-- Every fault of a grammar. -/
  | generator
  /-- An argument of the right type with a value that is not allowed. -/
  | badValue
  /-- A key that is not in a table. -/
  | missingKey
  /-- A look-up that found nothing. -/
  | failedLookup
  /-- A recursion that went too deep. -/
  | recursion
  /-- An error found while running. -/
  | running
  deriving DecidableEq, Repr

namespace Report

/-- The message of a report. -/
def message : Report → Text
  | .general details => Detail.bare details
  | .badSyntax details => Detail.bare details
  | .noStart name =>
    "grammar has no ".toList ++ name.shown ++ " definition".toList
  | .undefined name =>
    name.shown ++ " is referenced but never defined".toList
  | .tooDeep name limit =>
    "expansion of ".toList ++ name.shown ++ " exceeded max depth ".toList
      ++ limit.shown ++ " (cyclic grammar?)".toList

/-- The kinds a report counts as, narrowest family first within a chain:
a missing key is a failed look-up, and a runaway recursion is found while
running. -/
def kinds : Report → List ErrorKind
  | .general _ => [.generator]
  | .badSyntax _ => [.generator, .badValue]
  | .noStart _ => [.generator, .missingKey, .failedLookup]
  | .undefined _ => [.generator, .missingKey, .failedLookup]
  | .tooDeep _ _ => [.generator, .recursion, .running]

end Report

namespace Fault

/-- The report of a fault. -/
def report : Fault → Report
  | .unnamed block =>
    .badSyntax [.text ("definition has no non-terminal name: ".toList
      ++ Text.quoted (Text.trim block))]
  | .malformedName name =>
    .badSyntax [.text ("malformed non-terminal name: ".toList
      ++ Text.quoted name)]
  | .noStart name => .noStart (.text name)
  | .undefined name => .undefined (.text name)
  | .tooDeep name limit => .tooDeep (.text name) (.number limit)

/-- The message of a fault. -/
def message (f : Fault) : Text := f.report.message

end Fault

end SentenceForge

import SentenceForge.Text.Substitution

/-!
# Punctuation

In raw text every terminal is followed by a space, the marks included. A
sentence has its marks against the words they belong to: seven literal
substitutions are made, once each and in this order. A star after a full
stop goes with its space, which is how a grammar joins a sentence to the
next one without a gap.
-/

namespace SentenceForge.Punctuation

/-- The substitutions in order, each with what it writes. -/
def fixes : List (Text × Text) :=
  [(" ,".toList, ",".toList), (". *".toList, ".".toList),
    (",.".toList, ".".toList), (" .".toList, ".".toList),
    (" (".toList, "(".toList), (") ".toList, ")".toList),
    (" ?".toList, "?".toList)]

/-- **The text with its punctuation fixed.** -/
def fix (s : Text) : Text :=
  fixes.foldl (fun s f => Text.substitute f.1 f.2 s) s

/-- Every substitution makes the text shorter where it applies. -/
theorem length_lt_of_mem_fixes : ∀ f ∈ fixes, f.2.length < f.1.length := by
  decide

/-- A list of marks closes up. -/
example : fix "big , yellow flowers . ".toList
    = "big, yellow flowers. ".toList := by
  decide

end SentenceForge.Punctuation

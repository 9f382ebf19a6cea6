import SentenceForge.Text.Blank

/-!
# Line ends

A file read as text has its lines ended by line feeds: a carriage return
with its line feed, and a carriage return alone, are read as one.
-/

namespace SentenceForge.Text

/-- Every line end becomes a line feed. -/
def unifyLineEnds : Text → Text
  | [] => []
  | '\r' :: '\n' :: s => '\n' :: unifyLineEnds s
  | c :: s => (if c = '\r' then '\n' else c) :: unifyLineEnds s

end SentenceForge.Text

import SentenceForge.Text.CaseFolding.Table

/-!
# Case folding

Two names are the same name when their case foldings are equal. The
folding is the full one of Unicode: a character may fold to several, so
`ß` and `ss` fold alike, and no normalisation is applied.

Below `U+0080` folding is the lower case of ASCII and the tables are not
consulted.
-/

namespace SentenceForge.Text

/-- What one character folds to. -/
def foldChar (c : Char) : Text :=
  if c.toNat < 0x80 then [c.toLower]
  else
    match CaseFolding.expansions.lookup c.toNat with
    | some images => images.map Char.ofNat
    | none =>
      match CaseFolding.runs.findSome? (·.image? c.toNat) with
      | some image => [Char.ofNat image]
      | none => [c]

/-- The case folding of a text, character by character. -/
def fold (s : Text) : Text := s.flatMap foldChar

/-- The empty text folds to itself. -/
@[simp] theorem fold_nil : fold [] = [] := rfl

/-- Folding goes through a text from left to right. -/
@[simp] theorem fold_cons (c : Char) (s : Text) :
    fold (c :: s) = foldChar c ++ fold s := rfl

/-- **Folding is a homomorphism** of concatenation. -/
@[simp] theorem fold_append (s t : Text) :
    fold (s ++ t) = fold s ++ fold t := List.flatMap_append

/-- The sharp s folds to two characters. -/
example : fold "Straße".toList = "strasse".toList := by decide

end SentenceForge.Text

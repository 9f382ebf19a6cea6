/-!
# Text and its blanks

A text is a list of characters. Lists rather than strings, because every
rule of a grammar file is a rule on neighbouring characters, and a rule on
neighbours is a recursion on a list.

Blanks are the Unicode white space together with the four information
separators `U+001C` to `U+001F`. Two treatments of them are needed and
they agree: `words` cuts a text at its runs of blanks, `collapse` writes
every run as one space, and `trim` drops the runs at the ends. A
production is read with the first, a name with the other two, and both
see the same words in the same order.

`pieces` is the cut at a separator that keeps empty pieces, which is what
makes an empty production visible.
-/

namespace SentenceForge

/-- A text is a list of characters. -/
abbrev Text := List Char

namespace Text

/-- The blanks: Unicode white space and the information separators. -/
def isBlank (c : Char) : Bool :=
  let n := c.toNat
  (9 ≤ n && n ≤ 13) || (28 ≤ n && n ≤ 32) || n == 0x85 || n == 0xA0
    || n == 0x1680 || (0x2000 ≤ n && n ≤ 0x200A) || n == 0x2028
    || n == 0x2029 || n == 0x202F || n == 0x205F || n == 0x3000

/-- A space is a blank. -/
@[simp] theorem isBlank_space : isBlank ' ' = true := by decide

/-! ## Words -/

/-- The words of a text: its maximal runs of characters that are not
blank, in order. A word is never empty. -/
def words : Text → List Text
  | [] => []
  | c :: s =>
    if isBlank c then words s
    else
      match s with
      | [] => [[c]]
      | d :: _ =>
        if isBlank d then [c] :: words s
        else
          match words s with
          | [] => [[c]]
          | w :: ws => (c :: w) :: ws

/-- The empty text has no words. -/
@[simp] theorem words_nil : words [] = [] := rfl

/-- A blank in front adds no word. -/
theorem words_cons_of_isBlank {c : Char} (h : isBlank c = true) (s : Text) :
    words (c :: s) = words s := by
  cases s <;> exact if_pos h

/-! ## Collapsing and trimming -/

/-- Every run of blanks becomes one space. -/
def collapse : Text → Text
  | [] => []
  | c :: s =>
    if isBlank c then
      match s with
      | [] => [' ']
      | d :: _ => if isBlank d then collapse s else ' ' :: collapse s
    else c :: collapse s

/-- The text without the blanks in front. -/
def trimLeft (s : Text) : Text := s.dropWhile isBlank

/-- The text without the blanks at the end. -/
def trimRight (s : Text) : Text := (s.reverse.dropWhile isBlank).reverse

/-- The text without the blanks at either end. -/
def trim (s : Text) : Text := trimRight (trimLeft s)

/-- **The plain form** of a text: blanks collapsed to single spaces and
none at the ends. -/
def plain (s : Text) : Text := trim (collapse s)

/-! ## Pieces -/

/-- The pieces of a text between the occurrences of a separator, empty
ones included: there is one more piece than there are separators. -/
def pieces (sep : Char) : Text → List Text
  | [] => [[]]
  | c :: s =>
    if c = sep then [] :: pieces sep s
    else
      match pieces sep s with
      | [] => [[c]]
      | p :: ps => (c :: p) :: ps

/-- There is always a piece. -/
theorem pieces_ne_nil (sep : Char) (s : Text) : pieces sep s ≠ [] := by
  cases s with
  | nil => simp [pieces]
  | cons c s =>
    simp only [pieces]
    split
    · simp
    · split <;> simp

/-- **One piece more than separators.** -/
theorem length_pieces (sep : Char) (s : Text) :
    (pieces sep s).length = s.count sep + 1 := by
  induction s with
  | nil => rfl
  | cons c s ih =>
    by_cases h : c = sep
    · subst h
      simp [pieces, ih]
    · simp only [pieces, if_neg h, List.count_cons_of_ne h, ← ih]
      cases hp : pieces sep s with
      | nil => exact absurd hp (pieces_ne_nil sep s)
      | cons p ps => simp

/-- The texts joined with a separator between neighbours. -/
def joinWith (sep : Text) : List Text → Text
  | [] => []
  | [t] => t
  | t :: u :: ts => t ++ sep ++ joinWith sep (u :: ts)

end Text

end SentenceForge

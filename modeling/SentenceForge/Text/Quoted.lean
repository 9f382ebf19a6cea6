import SentenceForge.Text.Blank
import SentenceForge.Text.Printable.Table

/-!
# Quoted text

Messages quote the text they complain about, so that blanks and invisible
characters in it can be seen. A quoted text stands between apostrophes,
or between double quotes if it holds an apostrophe and no double quote. A
backslash and the enclosing quote are escaped, three control characters
have short names, and every other unprintable character is written by its
code point in the shortest of three widths.
-/

namespace SentenceForge.Text

/-- Whether a quoted text shows the character as itself. -/
def isPrintable (c : Char) : Bool :=
  let n := c.toNat
  (0x20 ≤ n && n < 0x7F)
    || !Printable.unprintable.any fun r => r.1 ≤ n && n ≤ r.2

/-- The digit for a value below sixteen, in lower case. -/
def hexDigit (n : Nat) : Char := "0123456789abcdef".toList.getD n '0'

/-- The last `width` hexadecimal digits of a number. -/
def hex : Nat → Nat → Text
  | 0, _ => []
  | width + 1, n => hex width (n / 16) ++ [hexDigit (n % 16)]

/-- A character written by its code point. -/
def escapedCode (c : Char) : Text :=
  let n := c.toNat
  if n ≤ 0xFF then '\\' :: 'x' :: hex 2 n
  else if n ≤ 0xFFFF then '\\' :: 'u' :: hex 4 n
  else '\\' :: 'U' :: hex 8 n

/-- A character as it stands between the given quotes. -/
def escaped (mark c : Char) : Text :=
  if c = mark ∨ c = '\\' then ['\\', c]
  else if c = '\n' then ['\\', 'n']
  else if c = '\r' then ['\\', 'r']
  else if c = '\t' then ['\\', 't']
  else if isPrintable c then [c]
  else escapedCode c

/-- The quote a text is enclosed in. -/
def quoteMark (s : Text) : Char :=
  if s.contains '\'' && !s.contains '"' then '"' else '\''

/-- **The quoted form** of a text. -/
def quoted (s : Text) : Text :=
  quoteMark s :: (s.flatMap (escaped (quoteMark s)) ++ [quoteMark s])

/-- A text that holds both quotes is enclosed in apostrophes and has its
own apostrophes escaped. -/
example : quoted ['a', '\'', '"'] = ['\'', 'a', '\\', '\'', '"', '\''] := by
  decide

end SentenceForge.Text

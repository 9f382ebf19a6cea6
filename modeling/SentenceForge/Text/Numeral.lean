import SentenceForge.Text.Blank

/-!
# Decimal numerals

An integer is written in ASCII digits with a minus sign if it is negative.
It is read more freely: blanks may surround it, a sign of either kind may
precede it, zeros may lead, single underscores may stand between digits,
and the digits may be those of any script. The information separators are
blanks of a text but not of a numeral.

A numeral of more than 4300 digits is refused, as reading it would take
time quadratic in its length.
-/

namespace SentenceForge.Text

/-! ## Writing -/

/-- The decimal digits of a natural number. -/
def ofNat (n : Nat) : Text := Nat.toDigits 10 n

/-- The decimal form of an integer. -/
def ofInt : Int → Text
  | .ofNat n => ofNat n
  | .negSucc n => '-' :: ofNat (n + 1)

/-! ## Reading -/

/-- The zeros of the decimal digits of Unicode, version 14. The other nine
digits of each script follow its zero. -/
def zeroDigits : List Nat := [
  0x30, 0x660, 0x6F0, 0x7C0, 0x966, 0x9E6, 0xA66, 0xAE6, 0xB66, 0xBE6,
  0xC66, 0xCE6, 0xD66, 0xDE6, 0xE50, 0xED0, 0xF20, 0x1040, 0x1090,
  0x17E0, 0x1810, 0x1946, 0x19D0, 0x1A80, 0x1A90, 0x1B50, 0x1BB0,
  0x1C40, 0x1C50, 0xA620, 0xA8D0, 0xA900, 0xA9D0, 0xA9F0, 0xAA50,
  0xABF0, 0xFF10, 0x104A0, 0x10D30, 0x11066, 0x110F0, 0x11136, 0x111D0,
  0x112F0, 0x11450, 0x114D0, 0x11650, 0x116C0, 0x11730, 0x118E0,
  0x11950, 0x11C50, 0x11D50, 0x11DA0, 0x16A60, 0x16AC0, 0x16B50,
  0x1D7CE, 0x1D7D8, 0x1D7E2, 0x1D7EC, 0x1D7F6, 0x1E140, 0x1E2F0,
  0x1E950, 0x1FBF0]

/-- The value of a decimal digit of any script. -/
def digitValue? (c : Char) : Option Nat :=
  zeroDigits.findSome? fun base =>
    if base ≤ c.toNat ∧ c.toNat < base + 10 then some (c.toNat - base)
    else none

/-- The most digits a numeral may have. -/
def maxNumeralDigits : Nat := 4300

/-- The blanks that may surround a numeral. -/
def isNumeralBlank (c : Char) : Bool :=
  isBlank c && !(0x1C ≤ c.toNat && c.toNat ≤ 0x1F)

/-- The values of the digits of an unsigned numeral: groups of digits
with single underscores between them, no group empty. -/
def numeralDigits? (s : Text) : Option (List Nat) :=
  let groups := pieces '_' s
  if groups.any List.isEmpty then none
  else groups.flatten.mapM digitValue?

/-- The value of an unsigned numeral. -/
def readNat? (s : Text) : Option Nat := do
  let digits ← numeralDigits? s
  if digits.length ≤ maxNumeralDigits then
    some (digits.foldl (fun n d => 10 * n + d) 0)
  else none

/-- **The value of a numeral**, if the text is one. -/
def readInt? (s : Text) : Option Int :=
  let inner := s.dropWhile isNumeralBlank
  match (inner.reverse.dropWhile isNumeralBlank).reverse with
  | '-' :: digits => (readNat? digits).map fun n => -(n : Int)
  | '+' :: digits => (readNat? digits).map fun n => (n : Int)
  | digits => (readNat? digits).map fun n => (n : Int)

/-- Underscores may separate digits but neither lead nor double. -/
example : readInt? " -1_000\n".toList = some (-1000)
    ∧ readInt? "1__0".toList = none ∧ readInt? "_1".toList = none
    ∧ readInt? "+".toList = none := by decide

end SentenceForge.Text

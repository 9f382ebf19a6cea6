import SentenceForge.Text.Quoted
import SentenceForge.Text.Numeral

/-!
# UTF-8

Files hold bytes. `encode` writes a text in UTF-8, and `decode` reads one
back, refusing the first byte sequence that is not the encoding of a
character: overlong forms, surrogates and values past the last code point
included.

The reader goes byte by byte and keeps the character it is inside of, if
any. A fault names the bytes read so far of that character – the longest
part that some character could still have begun with – and where they
start. That is all there is to say about the position of a fault, since
nothing after it is looked at.
-/

namespace SentenceForge.Utf8

/-- The bytes of a text. -/
def encode (s : Text) : List UInt8 := s.flatMap String.utf8EncodeChar

/-! ## Faults -/

/-- What is wrong with a sequence of bytes. -/
inductive Flaw where
  /-- No character begins with this byte. -/
  | badStart
  /-- The character is not continued by the next byte. -/
  | badContinuation
  /-- The bytes end inside the character. -/
  | truncated
  deriving DecidableEq, Repr

/-- The first place where bytes are not UTF-8. -/
structure Fault where
  /-- The number of bytes before the first bad one. -/
  position : Nat
  /-- The bad bytes, at least one. -/
  bytes : List UInt8
  /-- What is wrong with them. -/
  flaw : Flaw
  deriving DecidableEq, Repr

namespace Fault

/-- The reason a fault gives. -/
def reason (f : Fault) : Text :=
  match f.flaw with
  | .badStart => "invalid start byte".toList
  | .badContinuation => "invalid continuation byte".toList
  | .truncated => "unexpected end of data".toList

/-- The place a fault names: one byte with its value, or the positions of
several. -/
def place (f : Fault) : Text :=
  match f.bytes with
  | [b] =>
    "byte 0x".toList ++ Text.hex 2 b.toNat ++ " in position ".toList
      ++ Text.ofNat f.position
  | bytes =>
    "bytes in position ".toList ++ Text.ofNat f.position ++ '-'
      :: Text.ofNat (f.position + bytes.length - 1)

/-- The message of a fault. -/
def message (f : Fault) : Text :=
  "'utf-8' codec can't decode ".toList ++ f.place ++ ": ".toList ++ f.reason

end Fault

/-! ## Reading -/

/-- A character of which some bytes were read. -/
structure Partial where
  /-- The position of its first byte. -/
  start : Nat
  /-- The bytes read, in order. -/
  seen : List UInt8
  /-- The bits read. -/
  value : Nat
  /-- How many bytes are missing. -/
  missing : Nat
  /-- The least value the next byte may have. -/
  least : Nat
  /-- The greatest value the next byte may have. -/
  greatest : Nat

/-- The character that a byte opens, if one can begin with it. The bounds
on the second byte exclude overlong forms, surrogates and values past the
last code point. -/
def opened (position : Nat) (b : UInt8) : Option Partial :=
  let n := b.toNat
  if n < 0x80 then some ⟨position, [b], n, 0, 0, 0⟩
  else if n < 0xC2 then none
  else if n < 0xE0 then some ⟨position, [b], n - 0xC0, 1, 0x80, 0xBF⟩
  else if n < 0xF0 then
    let least := if n = 0xE0 then 0xA0 else 0x80
    let greatest := if n = 0xED then 0x9F else 0xBF
    some ⟨position, [b], n - 0xE0, 2, least, greatest⟩
  else if n < 0xF5 then
    let least := if n = 0xF0 then 0x90 else 0x80
    let greatest := if n = 0xF4 then 0x8F else 0xBF
    some ⟨position, [b], n - 0xF0, 3, least, greatest⟩
  else none

/-- The character with one more byte, if the byte continues it. -/
def Partial.continued (p : Partial) (b : UInt8) : Option Partial :=
  if p.least ≤ b.toNat ∧ b.toNat ≤ p.greatest then
    some ⟨p.start, p.seen ++ [b], p.value * 0x40 + (b.toNat - 0x80),
      p.missing - 1, 0x80, 0xBF⟩
  else none

/-- The text of the bytes from a position on, given the character that is
open there. -/
def decodeFrom : Nat → Option Partial → List UInt8 → Except Fault Text
  | _, none, [] => .ok []
  | _, some p, [] => .error ⟨p.start, p.seen, .truncated⟩
  | position, none, b :: bytes =>
    match opened position b with
    | none => .error ⟨position, [b], .badStart⟩
    | some p =>
      if p.missing = 0 then
        (decodeFrom (position + 1) none bytes).map (Char.ofNat p.value :: ·)
      else decodeFrom (position + 1) (some p) bytes
  | position, some p, b :: bytes =>
    match p.continued b with
    | none => .error ⟨p.start, p.seen, .badContinuation⟩
    | some q =>
      if q.missing = 0 then
        (decodeFrom (position + 1) none bytes).map (Char.ofNat q.value :: ·)
      else decodeFrom (position + 1) (some q) bytes

/-- **The text of a file's bytes**, or the first fault in them. -/
def decode (bytes : List UInt8) : Except Fault Text := decodeFrom 0 none bytes

end SentenceForge.Utf8

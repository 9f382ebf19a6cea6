import SentenceForge.Text.Substitution

/-!
# Spacing

A spacing is a way to write tokens in a row that looks no further than the
neighbour: what is written of a token depends on the token before it, and
whether a space follows depends on the next one. A neighbour that is
lacking counts as the empty text, which opens and ends with nothing.

The spacing of punctuation is what a sentence should look like, said of its
tokens. It knows nothing of the substitutions that bring it about.
-/

namespace SentenceForge

/-- **A way to write tokens in a row.** -/
structure Spacing where
  /-- What is written of a token behind another one. -/
  core : (before token : Text) → Text
  /-- Whether a space is written between a token and the next one. -/
  apart : (token next : Text) → Bool

namespace Spacing

/-- What is written between a token and the next one. -/
def gap (σ : Spacing) (token next : Text) : Text :=
  if σ.apart token next then [' '] else []

/-- Tokens as they are written behind one that was written before. -/
def after (σ : Spacing) : (before : Text) → List Text → Text
  | _, [] => []
  | before, t :: ts =>
    σ.core before t ++ (σ.gap t (ts.headD []) ++ σ.after t ts)

/-- **Tokens as they are written.** -/
def text (σ : Spacing) (tokens : List Text) : Text := σ.after [] tokens

/-- What is written at a position: the token there, with its gap. -/
def writtenAt (σ : Spacing) (before : Text) (tokens : List Text) (i : Nat) : Text :=
  σ.core ((before :: tokens).getD i []) (tokens.getD i [])
    ++ σ.gap (tokens.getD i []) (tokens.getD (i + 1) [])

/-- **Tokens are written position by position**, and no position sees
beyond its neighbours. -/
theorem after_eq_flatMap (σ : Spacing) (before : Text) (tokens : List Text) :
    σ.after before tokens
      = (List.range tokens.length).flatMap (σ.writtenAt before tokens) := by
  induction tokens generalizing before with
  | nil => rfl
  | cons t ts ih =>
    have hnext : (t :: ts).getD 1 [] = ts.headD [] := by cases ts <;> rfl
    have hhere : σ.writtenAt before (t :: ts) 0 = σ.core before t ++ σ.gap t (ts.headD []) := by
      rw [← hnext]
      rfl
    rw [after, ih t, List.length_cons, List.range_succ_eq_map, List.flatMap_cons,
      List.flatMap_map, hhere, List.append_assoc]
    rfl

end Spacing

namespace Punctuation

/-- The marks that close up to the token before them. -/
def closingMarks : List Char := [',', '.', '(', '?']

/-- **A token is starred** if it opens with a star and the token before it
ends with a full stop. -/
def starred (before token : Text) : Bool :=
  before.getLast? == some '.' && token.head? == some '*'

/-- A token without its star, if it is starred. -/
def unstarred (before token : Text) : Text :=
  if starred before token then token.tail else token

/-- **The spacing of punctuation.** A star that joins its token to a full
stop is dropped, and a comma in front of a full stop inside a token is
too. No space is written behind a token that closes a parenthesis, nor in
front of a mark that closes up or of a starred token. -/
def spacing : Spacing where
  core before token :=
    Text.substitute ",.".toList ".".toList (unstarred before token)
  apart token next :=
    token.getLast? != some ')' && !starred token next
      && closingMarks.all fun mark => next.head? != some mark

/-- A star behind a full stop joins what follows it. -/
example :
    spacing.text (["Oh,.", "*", "well", "(", "so", ")", "?"].map String.toList)
      = "Oh. well( so )? ".toList := by
  decide

end Punctuation

end SentenceForge

import SentenceForge.Error

/-!
# What an option was given

An option may be given the mark `--` for a value. The mark is never a
value, so it is dropped, and the option has then been given and has no
value: it is **void**. That is not the same as an option left out, which
has its default, and a program finds out only when it needs the value. So
the record of options holds what was given, and asking for the value is
what can fail (`Given.get`).
-/

namespace SentenceForge

/-- **What an option was given.** -/
inductive Given (α : Type) where
  /-- A value. -/
  | value (a : α)
  /-- The mark that is no value. -/
  | void
  deriving DecidableEq, Repr

namespace Given

variable {α : Type}

/-- The mark that is never a value. -/
def mark : Text := "--".toList

/-- What a text gives: itself, unless it is the mark. -/
def ofText (text : Text) : Given Text :=
  if text = mark then .void else .value text

/-- **The value**, for what it is needed for. -/
def get (g : Given α) (need : Need) : Except Error α :=
  match g with
  | .value a => .ok a
  | .void => .error (.valueless need)

/-- The value of an option that may be left out. -/
def get? (g : Option (Given α)) (need : Need) : Except Error (Option α) :=
  match g with
  | none => .ok none
  | some g => (g.get need).map some

/-- A value is there. -/
@[simp] theorem get_value (a : α) (need : Need) :
    (value a).get need = .ok a := rfl

/-- Every text but the mark gives itself. -/
@[simp] theorem ofText_of_ne {text : Text} (h : text ≠ mark) :
    ofText text = .value text := by
  rw [ofText, if_neg h]

end Given

end SentenceForge

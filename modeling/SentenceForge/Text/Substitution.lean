import SentenceForge.Text.Blank

/-!
# Literal substitution

`substitute old new s` writes `new` for every occurrence of `old` in `s`.
The scan goes left to right and an occurrence is searched for only after
the end of the one before it, so occurrences never overlap and what was
written is not read again.
-/

namespace SentenceForge.Text

/-- The scan behind `substitute`: `skip` characters of an occurrence that
was already replaced are still to be passed over. -/
def substituteFrom (old new : Text) : Nat → Text → Text
  | _, [] => []
  | skip + 1, _ :: s => substituteFrom old new skip s
  | 0, c :: s =>
    if old.isPrefixOf (c :: s) then
      new ++ substituteFrom old new (old.length - 1) s
    else c :: substituteFrom old new 0 s

/-- Every occurrence of `old`, left to right and without overlaps, is
replaced by `new`. -/
def substitute (old new s : Text) : Text := substituteFrom old new 0 s

/-- Nothing occurs in the empty text. -/
@[simp] theorem substitute_nil (old new : Text) :
    substitute old new [] = [] := rfl

/-- Passing over characters is dropping them. -/
theorem substituteFrom_eq_drop (old new : Text) (k : Nat) (s : Text) :
    substituteFrom old new k s = substitute old new (s.drop k) := by
  induction k generalizing s with
  | zero => rfl
  | succ k ih =>
    cases s with
    | nil => simp [substituteFrom]
    | cons c s => simpa [substituteFrom] using ih s

/-- **One step of the scan**, with the rest of the occurrence dropped. -/
theorem substitute_cons (old new : Text) (c : Char) (s : Text) :
    substitute old new (c :: s)
      = if old.isPrefixOf (c :: s) then
          new ++ substitute old new (s.drop (old.length - 1))
        else c :: substitute old new s := by
  unfold substitute
  rw [substituteFrom]
  simp only [substituteFrom_eq_drop, List.drop_zero]

end SentenceForge.Text

import SentenceForge.Proofs.Sentence.Shape

/-!
# What fixing the punctuation takes away

Fixing the punctuation is seven searches through the whole text, and each reads
what the one before it wrote. On the raw text of words they come to a rule for
neighbours, but on any text at all, with spaces wherever they like, the later
ones may find what the earlier ones made. What can still be said of every text
is what each of them keeps: all it does is to take out a space, a comma or a
star, or two of them, and leave the rest in its order.

Since every search that finds something makes the text shorter, none can undo
what another did, and the texts that stay as they are are those that none finds
anything in. Which occurrences are found is said without a scan by
`ReplacedInTurn`: the first, and the first behind it, for each pattern in its
turn.
-/

namespace SentenceForge

open Text

/-! ## Substitutions in turn -/

/-- **A text after substitutions in turn**: every occurrence of the first pattern is
replaced, and then those of the next in what this leaves. -/
inductive ReplacedInTurn : List (Text × Text) → Text → Text → Prop where
  /-- No substitution is left. -/
  | nil (s : Text) : ReplacedInTurn [] s s
  /-- One is made, and then the others. -/
  | cons {f : Text × Text} {fs : List (Text × Text)} {s t r : Text}
      (first : Replaced f.1 f.2 s t) (rest : ReplacedInTurn fs t r) : ReplacedInTurn (f :: fs) s r

section Turns

variable {fs : List (Text × Text)} (hne : ∀ f ∈ fs, f.1 ≠ [])

include hne

/-- There is one such text, and the scans find it. -/
theorem replacedInTurn_iff {s r : Text} :
    ReplacedInTurn fs s r ↔ r = fs.foldl (fun s f => substitute f.1 f.2 s) s := by
  induction fs generalizing s with
  | nil =>
    constructor
    · rintro ⟨⟩
      rfl
    · rintro rfl
      exact .nil _
  | cons f fs ih =>
    rw [List.forall_mem_cons] at hne
    rw [List.foldl_cons, ← ih hne.2]
    constructor
    · intro h
      cases h with
      | cons first rest => rwa [← (replaced_iff hne.1).1 first]
    · exact fun rest => .cons ((replaced_iff hne.1).2 rfl) rest

/-- **Substitutions that take characters out of their patterns take them out of a
text.** -/
theorem foldl_substitute_sublist (h : ∀ f ∈ fs, f.2.Sublist f.1) (s : Text) :
    (fs.foldl (fun s f => substitute f.1 f.2 s) s).Sublist s := by
  induction fs generalizing s with
  | nil => exact List.Sublist.refl s
  | cons f fs ih =>
    rw [List.forall_mem_cons] at hne h
    exact (ih hne.2 h.2 _).trans (substitute_sublist hne.1 h.1 s)

/-- **Substitutions that keep some characters of their patterns keep them in a
text.** -/
theorem filter_foldl_substitute {p : Char → Bool} (h : ∀ f ∈ fs, f.2.filter p = f.1.filter p)
    (s : Text) : (fs.foldl (fun s f => substitute f.1 f.2 s) s).filter p = s.filter p := by
  induction fs generalizing s with
  | nil => rfl
  | cons f fs ih =>
    rw [List.forall_mem_cons] at hne h
    rw [List.foldl_cons, ih hne.2 h.2, filter_substitute hne.1 h.1]

end Turns

/-! ## Punctuation -/

namespace Punctuation

/-- **Fixing the punctuation only deletes** spaces, commas and stars, in whatever
text. It replaces the occurrences of each pattern in its turn, from the left and
without overlaps, and leaves a text as it is if none of the patterns occurs in
it. -/
theorem fix_deletes (s : Text) :
    (fix s).Sublist s
      ∧ (fix s).filter (· ∉ [' ', ',', '*']) = s.filter (· ∉ [' ', ',', '*'])
      ∧ (fix s = s ↔ ∀ pattern ∈ [" ,", ". *", ",.", " .", " (", ") ", " ?"],
        ¬ pattern.toList <:+: s)
      ∧ ∀ r, ReplacedInTurn fixes s r ↔ r = fix s := by
  have hne : ∀ f ∈ fixes, f.1 ≠ [] := by decide
  refine ⟨foldl_substitute_sublist hne (by decide) s, filter_foldl_substitute hne (by decide) s, ?_,
    fun r => replacedInTurn_iff hne⟩
  rw [fix_eq_self_iff]
  simp [fixes]

/-- Of two spaces in front of a comma one is taken and the other is not found any
more, nor is the comma that comes to stand in front of a full stop. -/
example : fix "so  ,, .  * and ) (".toList = "so ,,.  * and )(".toList := by decide

end Punctuation

end SentenceForge

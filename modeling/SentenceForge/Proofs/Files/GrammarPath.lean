import Mathlib.Data.List.Infix
import SentenceForge.Files.GrammarFile

/-!
# Completed paths

A grammar is asked for by a name, and the name is completed to the path of a file: with
the extension behind it and the directory in front of it, each unless it is there.
`IsGrammarPath` says what a path looks like that has both. Completing results in such a
path and leaves such a path alone, so that a name may be completed any number of times.

That the two additions do not get in each other's way is owed to the slash. What is put
in front of a relative name is empty or ends with a slash, and the extension holds none.
So with the directory in front a text has the extension only if the name has it
(`suffix_append_iff`), and with the extension behind it begins with the directory only
if the name does (`prefix_append_iff`). A directory may itself end like a file, or a name
begin like the directory.

These laws are all there is to know of completing: only one function has them
(`Completes.eq_grammarPath`).
-/

namespace SentenceForge

/-! ## A front and an end without a common character -/

section Apart

variable {front tail : Text}

/-- An end is no part of a front whose last character it does not hold, so it is behind
the front if it is there at all. -/
theorem suffix_append_iff (apart : ∀ c ∈ front.getLast?, c ∉ tail) (s : Text) :
    tail <:+ front ++ s ↔ tail <:+ s := by
  refine ⟨fun h => ?_, fun h => h.trans (List.suffix_append front s)⟩
  obtain hs | ⟨u, rfl⟩ := List.suffix_or_suffix_of_suffix h (List.suffix_append front s)
  · exact hs
  obtain ⟨v, hv⟩ := h
  rw [← List.append_assoc, List.append_left_inj] at hv
  cases hu : u.getLast? with
  | none =>
    rw [List.getLast?_eq_none_iff.1 hu]
    exact List.suffix_rfl
  | some c =>
    have hc : c ∈ front.getLast? := by simp [← hv, hu]
    exact absurd (List.mem_append_left s (List.mem_of_getLast? hu)) (apart c hc)

/-- A front whose last character an end does not hold does not reach into the end. -/
theorem prefix_append_iff (apart : ∀ c ∈ front.getLast?, c ∉ tail) (s : Text) :
    front <+: s ++ tail ↔ front <+: s := by
  refine ⟨fun h => ?_, fun h => h.trans (List.prefix_append s tail)⟩
  obtain hs | ⟨u, rfl⟩ := List.prefix_or_prefix_of_prefix h (List.prefix_append s tail)
  · exact hs
  rw [List.prefix_append_right_inj] at h
  cases hu : u.getLast? with
  | none => rw [List.getLast?_eq_none_iff.1 hu, List.append_nil]
  | some c =>
    have hc : c ∈ (s ++ u).getLast? := by simp [hu]
    exact absurd (h.subset (List.mem_of_getLast? hu)) (apart c hc)

end Apart

/-! ## Inside a directory -/

namespace Path

/-- A relative path is joined to what a directory is in front of its files. -/
theorem join_of_not_isAbsolute {path : Text} (h : isAbsolute path = false) (directory : Text) :
    join directory path = join directory [] ++ path := by
  have hnil : isAbsolute [] = false := rfl
  unfold join
  simp only [h, hnil, Bool.false_eq_true, if_false]
  split <;> simp

/-- What a directory is in front of its files is empty or ends with a slash. -/
theorem slash_of_mem_getLast?_join_nil {directory : Text} {c : Char}
    (hc : c ∈ (join directory []).getLast?) : c = '/' := by
  have hnil : isAbsolute [] = false := rfl
  unfold join at hc
  simp only [hnil, Bool.false_eq_true, if_false] at hc
  split at hc
  case isTrue h =>
    rw [Bool.or_eq_true, List.isEmpty_iff, beq_iff_eq] at h
    obtain rfl | h := h
    · simp at hc
    · simpa [h, eq_comm] using hc
  case isFalse => simpa [eq_comm] using hc

end Path

/-- The extension has no slash, and so is apart from a directory. -/
theorem not_mem_grammarExtension (directory : Text) :
    ∀ c ∈ (Path.join directory []).getLast?, c ∉ grammarExtension := by
  intro c hc
  rw [Path.slash_of_mem_getLast?_join_nil hc]
  decide

/-! ## Names with the extension -/

section Extension

variable {name directory : Text}

/-- A name gets the extension unless it has it. -/
theorem withExtension_of_not_suffix (h : ¬ grammarExtension <:+ name) :
    withExtension name = name ++ grammarExtension := by
  unfold withExtension
  rw [if_neg (by rwa [List.isSuffixOf_iff_suffix])]

/-- A name that has the extension stays what it is. -/
theorem withExtension_of_suffix (h : grammarExtension <:+ name) : withExtension name = name :=
  withExtension_of_isSuffixOf (List.isSuffixOf_iff_suffix.2 h)

/-- A name with the extension has it. -/
theorem suffix_withExtension (name : Text) : grammarExtension <:+ withExtension name := by
  by_cases h : grammarExtension <:+ name
  · rwa [withExtension_of_suffix h]
  · rw [withExtension_of_not_suffix h]
    exact List.suffix_append name grammarExtension

/-- The extension makes no name absolute. -/
@[simp] theorem isAbsolute_withExtension (name : Text) :
    Path.isAbsolute (withExtension name) = Path.isAbsolute name := by
  by_cases h : grammarExtension <:+ name
  · rw [withExtension_of_suffix h]
  · rw [withExtension_of_not_suffix h]
    cases name <;> rfl

/-- The extension puts no name inside a directory. -/
@[simp] theorem prefix_withExtension_iff :
    Path.join directory [] <+: withExtension name ↔ Path.join directory [] <+: name := by
  by_cases h : grammarExtension <:+ name
  · rw [withExtension_of_suffix h]
  · rw [withExtension_of_not_suffix h, prefix_append_iff (not_mem_grammarExtension directory)]

/-- A name in a directory gets the extension that it gets by itself. -/
theorem withExtension_join (h : Path.isAbsolute name = false) :
    withExtension (Path.join directory name) = Path.join directory [] ++ withExtension name := by
  have hsuffix := suffix_append_iff (not_mem_grammarExtension directory) name
  rw [Path.join_of_not_isAbsolute h]
  by_cases hname : grammarExtension <:+ name
  · rw [withExtension_of_suffix hname, withExtension_of_suffix (hsuffix.2 hname)]
  · rw [withExtension_of_not_suffix hname, withExtension_of_not_suffix (mt hsuffix.1 hname),
      List.append_assoc]

end Extension

/-! ## Completing -/

/-- **A path of a grammar** asked for in a directory: it has the extension, and it is
absolute or inside the directory. -/
structure IsGrammarPath (directory path : Text) : Prop where
  /-- It has the extension. -/
  extended : grammarExtension <:+ path
  /-- It is absolute or begins with the directory. -/
  placed : Path.isAbsolute path = true ∨ Path.join directory [] <+: path

/-- **What completes names** in a directory to paths of grammars. -/
structure Completes (directory : Text) (complete : Text → Text) : Prop where
  /-- A completed name is the path of a grammar. -/
  isGrammarPath : ∀ name, IsGrammarPath directory (complete name)
  /-- The path of a grammar is complete. -/
  complete_of_isGrammarPath : ∀ path, IsGrammarPath directory path → complete path = path
  /-- Completing again changes nothing. -/
  complete_complete : ∀ name, complete (complete name) = complete name
  /-- It does not matter whether the extension is left out. -/
  complete_append : ∀ name, ¬ grammarExtension <:+ name →
    complete (name ++ grammarExtension) = complete name
  /-- It does not matter whether the directory is left out. -/
  complete_join : ∀ name, Path.isAbsolute name = false → ¬ Path.join directory [] <+: name →
    complete (Path.join directory name) = complete name

section Completing

variable {name path directory : Text}

/-- A name that is absolute or inside the directory gets the extension alone. -/
theorem grammarPath_of_placed
    (h : Path.isAbsolute name = true ∨ Path.join directory [] <+: name) :
    grammarPath name directory = withExtension name := by
  unfold grammarPath
  rw [if_pos]
  rwa [Bool.or_eq_true, List.isPrefixOf_iff_prefix, isAbsolute_withExtension,
    prefix_withExtension_iff]

/-- Every other name gets the directory as well. -/
theorem grammarPath_of_not_placed (hrelative : Path.isAbsolute name = false)
    (houtside : ¬ Path.join directory [] <+: name) :
    grammarPath name directory = Path.join directory [] ++ withExtension name := by
  have hname : Path.isAbsolute (withExtension name) = false := by
    rwa [isAbsolute_withExtension]
  unfold grammarPath
  rw [if_neg, Path.join_of_not_isAbsolute hname]
  rw [Bool.or_eq_true, List.isPrefixOf_iff_prefix, prefix_withExtension_iff, hname]
  simpa using houtside

/-- **A completed name is the path of a grammar.** -/
theorem isGrammarPath_grammarPath (name directory : Text) :
    IsGrammarPath directory (grammarPath name directory) := by
  by_cases h : Path.isAbsolute name = true ∨ Path.join directory [] <+: name
  · rw [grammarPath_of_placed h]
    exact ⟨suffix_withExtension name, by simpa using h⟩
  · rw [not_or, Bool.not_eq_true] at h
    rw [grammarPath_of_not_placed h.1 h.2]
    exact ⟨(suffix_withExtension name).trans (List.suffix_append _ _),
      .inr (List.prefix_append _ _)⟩

/-- **The path of a grammar is complete.** -/
theorem IsGrammarPath.grammarPath_eq (h : IsGrammarPath directory path) :
    grammarPath path directory = path := by
  rw [grammarPath_of_placed h.placed, withExtension_of_suffix h.extended]

/-- **A name and the name with the extension lead to one path.** -/
theorem grammarPath_append (h : ¬ grammarExtension <:+ name) :
    grammarPath (name ++ grammarExtension) directory = grammarPath name directory := by
  have hsame : withExtension (name ++ grammarExtension) = withExtension name := by
    rw [withExtension_of_suffix (List.suffix_append name grammarExtension),
      withExtension_of_not_suffix h]
  unfold grammarPath
  rw [hsame]

/-- **A name and the name in the directory lead to one path**, if the name is relative
and not inside the directory already. -/
theorem grammarPath_join (hrelative : Path.isAbsolute name = false)
    (houtside : ¬ Path.join directory [] <+: name) :
    grammarPath (Path.join directory name) directory = grammarPath name directory := by
  have hinside : Path.join directory [] <+: Path.join directory name := by
    rw [Path.join_of_not_isAbsolute hrelative]
    exact List.prefix_append _ _
  rw [grammarPath_of_placed (.inr hinside), withExtension_join hrelative,
    grammarPath_of_not_placed hrelative houtside]

/-- **Only one function completes names** in a directory. -/
theorem Completes.eq_grammarPath {complete : Text → Text} (h : Completes directory complete) :
    complete = fun name => grammarPath name directory := by
  -- a name with the extension is either complete or complete in the directory
  have hextended : ∀ name, grammarExtension <:+ name →
      complete name = grammarPath name directory := by
    intro name hname
    by_cases hplaced : Path.isAbsolute name = true ∨ Path.join directory [] <+: name
    · rw [h.complete_of_isGrammarPath name ⟨hname, hplaced⟩, grammarPath_of_placed hplaced,
        withExtension_of_suffix hname]
    · rw [not_or, Bool.not_eq_true] at hplaced
      have hjoin := Path.join_of_not_isAbsolute hplaced.1 directory
      have hpath : IsGrammarPath directory (Path.join directory name) := by
        rw [hjoin]
        exact ⟨hname.trans (List.suffix_append _ _), .inr (List.prefix_append _ _)⟩
      rw [← h.complete_join name hplaced.1 hplaced.2, h.complete_of_isGrammarPath _ hpath, hjoin,
        grammarPath_of_not_placed hplaced.1 hplaced.2, withExtension_of_suffix hname]
  funext name
  by_cases hname : grammarExtension <:+ name
  · exact hextended name hname
  · rw [← h.complete_append name hname, ← grammarPath_append hname]
    exact hextended _ (List.suffix_append name grammarExtension)

end Completing

/-- **A grammar's path completes names**, in every directory, and nothing else does. -/
theorem completes_grammarPath (directory : Text) :
    Completes directory (fun name => grammarPath name directory)
      ∧ ∀ complete, Completes directory complete →
        complete = fun name => grammarPath name directory := by
  refine ⟨?_, fun complete => Completes.eq_grammarPath⟩
  exact {
    isGrammarPath name := isGrammarPath_grammarPath name directory
    complete_of_isGrammarPath _ := IsGrammarPath.grammarPath_eq
    complete_complete name := (isGrammarPath_grammarPath name directory).grammarPath_eq
    complete_append _ := grammarPath_append
    complete_join _ := grammarPath_join }

/-- A directory that ends like a file, and a name that begins like the directory: both
additions are made, and the path is the same if either was made already. -/
theorem completes_grammarPath_of_like_directory :
    let directory := "a.g".toList
    let name := "a.gb".toList
    let path := "a.g/a.gb.g".toList
    grammarPath name directory = path
      ∧ IsGrammarPath directory path
      ∧ grammarPath path directory = path
      ∧ ¬ grammarExtension <:+ name ∧ grammarPath (name ++ grammarExtension) directory = path
      ∧ Path.isAbsolute name = false ∧ ¬ Path.join directory [] <+: name
      ∧ grammarPath (Path.join directory name) directory = path := by
  intro directory name path
  have hpath : grammarPath name directory = path := by decide
  have hextension : ¬ grammarExtension <:+ name := by decide
  have hrelative : Path.isAbsolute name = false := by decide
  have houtside : ¬ Path.join directory [] <+: name := by decide
  have laws := (completes_grammarPath directory).1
  have hagain := laws.complete_complete name
  have hplain := laws.complete_append name hextension
  have hjoined := laws.complete_join name hrelative houtside
  have his := laws.isGrammarPath name
  simp only [hpath] at hagain hplain hjoined his
  exact ⟨hpath, his, laws.complete_of_isGrammarPath path his, hextension, hplain, hrelative,
    houtside, hjoined⟩

end SentenceForge

import SentenceForge.Files.Tree

/-!
# A file that was written is there

Writing puts a file at the place a path leads to, and the path still leads
there: the places on the way are directories and that place is not one, so
nothing on the way has changed (`walk_put`). What is found at the path is
then what was written (`find?_writeText`), and since no two texts have the
same bytes the file tells which text that was (`encode_injective`).

A path can be written if directories can be made on the way to it and
there is none at its end (`CanWrite`). Making way for it changes nothing but
that directories come to be where nothing was (`OnlyMadeDirectories`).
-/

namespace SentenceForge

/-- **No two texts have the same bytes.** -/
theorem Utf8.encode_injective {s t : Text} (h : encode s = encode t) : s = t := by
  have hbytes : List.utf8Encode s = List.utf8Encode t := congrArg List.toByteArray h
  have hread := congrArg ByteArray.utf8Decode? hbytes
  rw [List.utf8Decode?_utf8Encode, List.utf8Decode?_utf8Encode] at hread
  exact congrArg Array.toList (Option.some.inj hread)

namespace FileTree

/-! ## Writing -/

/-- **A walk goes on from a directory only.** -/
theorem walk_cons_cons_iff {t : FileTree} {path : Text} {p q : Place} {name name' : Text}
    {names : List Text} :
    t.walk path q (name :: name' :: names) = .ok p
      ↔ nameTooLong name = false ∧ t.at? (q.step name) = some .directory
        ∧ t.walk path (q.step name) (name' :: names) = .ok p := by
  rw [walk.eq_def]
  cases hlong : nameTooLong name with
  | true => simp [hlong]
  | false =>
    cases hat : t.at? (q.step name) with
    | none => simp [hlong, hat]
    | some node => cases node <;> simp [hlong, hat]

/-- **A path leads to where it led**, after something was put there that was
no directory before. -/
theorem walk_put {t : FileTree} {path : Text} {p q : Place} {names : List Text}
    (h : t.walk path q names = .ok p) (hp : t.at? p ≠ some .directory) (n : FileNode) :
    (t.put p n).walk path q names = .ok p := by
  induction names generalizing q with
  | nil => exact h
  | cons name names ih =>
    cases names with
    | nil => exact h
    | cons name' names =>
      -- the walk looks only at what it goes on from, and that is never `p`
      obtain ⟨hlong, hdir, hrest⟩ := walk_cons_cons_iff.1 h
      have hne : p ≠ q.step name := fun e => hp (e ▸ hdir)
      exact walk_cons_cons_iff.2 ⟨hlong, (at?_put_of_ne t n hne).trans hdir, ih hrest⟩

/-- Where a file can be written is no directory. -/
theorem locate_of_writable {t : FileTree} {path : Text} {p : Place}
    (h : t.writable path = .ok p) : t.locate path = .ok p ∧ t.at? p ≠ some .directory := by
  unfold writable at h
  cases hloc : t.locate path with
  | error e =>
    rw [hloc] at h
    cases h
  | ok q =>
    rw [hloc] at h
    have h' : (if t.at? q = some .directory || path.getLast? == some '/' then
        Except.error (FileFault.isDirectory path) else .ok q) = .ok p := h
    split at h'
    · cases h'
    · rename_i hfree
      obtain rfl := Except.ok.inj h'
      refine ⟨rfl, fun hdir => hfree ?_⟩
      rw [decide_eq_true hdir, Bool.true_or]

/-- A path that was written leads to where it led. -/
theorem locate_writeText {t : FileTree} {path : Text} {p : Place} (h : t.writable path = .ok p)
    (text : Text) : (t.writeText p text).locate path = .ok p := by
  obtain ⟨hloc, hp⟩ := locate_of_writable h
  unfold locate at hloc ⊢
  cases hfault : pathFault? path with
  | some e =>
    rw [hfault] at hloc
    cases hloc
  | none =>
    rw [hfault] at hloc
    exact walk_put hloc hp _

/-- **What was written is at the place it was written to.** -/
theorem at?_writeText {t : FileTree} {path : Text} {p : Place} (h : t.writable path = .ok p)
    (text : Text) : (t.writeText p text).at? p = some (.file (Utf8.encode text)) := by
  have hnames : p.names.isEmpty = false :=
    Bool.eq_false_iff.2 fun hempty => (locate_of_writable h).2 (if_pos hempty)
  exact at?_put_self t _ hnames

/-- **What was written to a path is found there.** -/
theorem find?_writeText {t : FileTree} {path : Text} {p : Place}
    (h : t.writable path = .ok p) (text : Text) :
    (t.writeText p text).find? path = some (.file (Utf8.encode text)) := by
  rw [find?, locate_writeText h]
  exact at?_writeText h text

/-! ## Making way -/

/-- The tree with directories made on the way to a path, and what failed, if
anything. -/
def prepared (t : FileTree) (path : Text) : FileTree × Option FileFault :=
  if (Path.directory path).isEmpty then (t, none)
  else t.ensureDirectories (Path.directory path)

/-- **Only directories were made**, where nothing was before. -/
def OnlyMadeDirectories (t t' : FileTree) : Prop :=
  ∀ q, t'.at? q = t.at? q ∨ (t.at? q = none ∧ t'.at? q = some .directory)

/-- None need be made. -/
theorem OnlyMadeDirectories.refl (t : FileTree) : t.OnlyMadeDirectories t := fun _ => .inl rfl

/-- One can be made where nothing is. -/
theorem onlyMadeDirectories_put {t : FileTree} {p : Place} (h : t.at? p = none) :
    t.OnlyMadeDirectories (t.put p .directory) := by
  intro q
  by_cases hq : p = q
  · subst hq
    have hnames : p.names.isEmpty = false := Bool.eq_false_iff.2 fun hempty => by
      rw [at?, if_pos hempty] at h
      cases h
    exact .inr ⟨h, at?_put_self t _ hnames⟩
  · exact .inl (at?_put_of_ne t _ hq)

/-- More can be made. -/
theorem OnlyMadeDirectories.trans {t t' t'' : FileTree} (h : t.OnlyMadeDirectories t')
    (h' : t'.OnlyMadeDirectories t'') : t.OnlyMadeDirectories t'' := by
  intro q
  rcases h' q with hsame | ⟨hnone, hmade⟩
  · rw [hsame]
    exact h q
  · rcases h q with hsame | ⟨-, hmade'⟩
    · exact .inr ⟨hsame.symm.trans hnone, hmade⟩
    · rw [hmade'] at hnone
      cases hnone

/-- **Making directories along a path makes directories and nothing else**, also
where it fails on the way. -/
theorem onlyMadeDirectories_ensureAlong (t : FileTree) (p : Place) (made : Bool) (before : Text)
    (names : List Text) : t.OnlyMadeDirectories (t.ensureAlong p made before names).1 := by
  induction names generalizing t p made before with
  | nil => exact .refl t
  | cons name names ih =>
    rw [ensureAlong]
    split
    · exact ih t p made _
    · split
      · exact .refl t
      · exact .refl t
      · exact .refl t
      · split
        · exact .refl t
        · dsimp only
          split
          · next hnone => exact (onlyMadeDirectories_put hnone).trans (ih _ _ _ _)
          · exact .refl t
          · exact ih t _ made _

/-- Making way for a path makes directories and nothing else. -/
theorem onlyMadeDirectories_prepared (t : FileTree) (path : Text) :
    t.OnlyMadeDirectories (t.prepared path).1 := by
  unfold prepared
  split
  · exact .refl t
  · exact onlyMadeDirectories_ensureAlong t _ _ _ _

/-- **A path can be written** if directories can be made on the way to it,
and then there is none at its end. -/
def CanWrite (t : FileTree) (path : Text) : Prop :=
  (t.prepared path).2 = none ∧ ∃ p, (t.prepared path).1.writable path = .ok p

end FileTree

end SentenceForge

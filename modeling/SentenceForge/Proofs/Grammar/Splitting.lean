import SentenceForge.Proofs.Grammar.Definition

/-!
# Splitting a block

What a block is split into can be read off the block as it stands, before any
blank of it is treated. It is cut behind its first `>` and at the semicolons from
there on, and every part is taken in its plain form. Only the last one may be
lost: it opens no body if it is blank.

So no body is lost at a semicolon and none is made up. There are as many as there
are semicolons behind the name, and one more exactly if something is written
behind the last of them, and what is blank is a body too if a semicolon follows it
(`ofBlock_splits`).
-/

namespace SentenceForge

namespace Text

/-- **The pieces of a text make it up**, with the separator between them. -/
theorem joinWith_pieces (sep : Char) (s : Text) : joinWith [sep] (pieces sep s) = s := by
  induction s using pieces_induction sep with
  | one p hp => rw [pieces_of_not_mem hp, joinWith]
  | more p s hp ih =>
    rw [pieces_append_cons hp, joinWith_cons [sep] p (pieces_ne_nil sep s), ih]
    simp

/-- The last piece apart, there is a piece for each separator. -/
theorem exists_pieces_eq (sep : Char) (s : Text) :
    ∃ ps last, pieces sep s = ps ++ [last] ∧ ps.length = s.count sep := by
  obtain ⟨ps, last, hpieces⟩ :=
    (List.eq_nil_or_concat' (pieces sep s)).resolve_left (pieces_ne_nil sep s)
  refine ⟨ps, last, hpieces, ?_⟩
  have hlength := length_pieces sep s
  rw [hpieces, List.length_append, List.length_singleton] at hlength
  exact Nat.succ.inj hlength

/-- **A text as it is split off**: free of the separator, with no blank but single
spaces and none at its ends. -/
structure IsFragment (sep : Char) (t : Text) : Prop where
  /-- The separator is not in it. -/
  not_mem : sep ∉ t
  /-- Its blanks are single spaces. -/
  singleSpaced : SingleSpaced t
  /-- It does not open with one. -/
  not_isBlank_head : ∀ c ∈ t.head?, isBlank c = false
  /-- It does not end with one. -/
  not_isBlank_last : ∀ c ∈ t.getLast?, isBlank c = false

/-- The plain form of a text without the separator is a fragment. -/
theorem isFragment_plain {sep : Char} (hsep : isBlank sep = false) {t : Text} (h : sep ∉ t) :
    IsFragment sep (plain t) where
  not_mem := mt (mem_plain hsep t).1 h
  singleSpaced := singleSpaced_plain t
  not_isBlank_head := not_isBlank_head_trim _
  not_isBlank_last := not_isBlank_last_trim _

end Text

namespace Definition

/-- **A block that is split into a definition**, with the pieces that its bodies
are taken from, the last one apart. -/
structure SplitInto (block : Text) (pieces : List Text) (last : Text) (d : Definition) :
    Prop where
  /-- The block is cut behind its head. -/
  eq_append : block = head block ++ rest block
  /-- What follows the head is cut at its semicolons. -/
  rest_eq : rest block = Text.joinWith [';'] (pieces ++ [last])
  /-- It is cut at all of them. -/
  semicolon_not_mem : ∀ p ∈ pieces ++ [last], ';' ∉ p
  /-- The name is the head in its plain form. -/
  name_eq : d.name = Text.plain (head block)
  /-- The bodies are the pieces in theirs, with the last one if it is not blank. -/
  bodies_eq : d.bodies
    = (pieces ++ if Text.AllBlank last then [] else [last]).map Text.plain

/-- A block with a `>` is its head and its rest. -/
theorem head_append_rest {block : Text} (h : '>' ∈ block) : head block ++ rest block = block := by
  obtain ⟨p, r, rfl, hp⟩ := List.eq_append_cons_of_mem h
  rw [head_append hp, rest_append hp]
  simp

/-- **The bodies in a text are its pieces**, but for a last one that is blank. -/
theorem bodiesOf_eq {s last : Text} {ps : List Text} (h : Text.pieces ';' s = ps ++ [last]) :
    bodiesOf s = (ps ++ if Text.AllBlank last then [] else [last]).map Text.plain := by
  have hlast : (Text.plain last = []) = Text.AllBlank last := propext Text.plain_eq_nil_iff
  unfold bodiesOf withoutBlankLast
  rw [h, List.map_append, List.map_singleton, List.getLast?_concat, List.dropLast_concat]
  simp only [Option.some.injEq, hlast]
  by_cases hblank : Text.AllBlank last
  · rw [if_pos hblank, if_pos hblank, List.append_nil]
  · rw [if_neg hblank, if_neg hblank, List.map_append, List.map_singleton]

/-- **A block that is not malformed is split** into what it defines, into a piece
for each semicolon behind its head and a last one. -/
theorem exists_splitInto_read {block : Text} (h : ¬ Malformed block) :
    ∃ ps last, SplitInto block ps last (read block) ∧ ps.length = (rest block).count ';' := by
  obtain ⟨ps, last, hpieces, hlength⟩ := Text.exists_pieces_eq ';' (rest block)
  have hclose : '>' ∈ block := by
    by_contra hclose
    exact h (.inl hclose)
  refine ⟨ps, last, ⟨(head_append_rest hclose).symm, ?_, ?_, rfl, bodiesOf_eq hpieces⟩, hlength⟩
  · rw [← hpieces, Text.joinWith_pieces]
  · intro p hp
    exact Text.not_mem_of_mem_pieces (hpieces ▸ hp)

namespace SplitInto

variable {block last : Text} {ps : List Text} {d : Definition} (h : SplitInto block ps last d)
include h

/-- There are as many bodies as there are pieces, but for a last one that is
blank. -/
theorem length_bodies :
    d.bodies.length = ps.length + if Text.AllBlank last then 0 else 1 := by
  rw [h.bodies_eq, List.length_map, List.length_append]
  split <;> rfl

/-- **A piece in front of a semicolon is a body**, in the same place. -/
theorem getElem?_bodies {i : Nat} {p : Text} (hp : ps[i]? = some p) :
    d.bodies[i]? = some (Text.plain p) := by
  obtain ⟨hi, rfl⟩ := List.getElem?_eq_some_iff.1 hp
  rw [h.bodies_eq, List.getElem?_map, List.getElem?_append_left hi, hp, Option.map_some]

/-- **Name and bodies are fragments**, if the head has no semicolon. -/
theorem isFragment (hhead : ';' ∉ head block) : ∀ t ∈ d.entry, Text.IsFragment ';' t := by
  refine List.forall_mem_cons.2 ⟨?_, fun body hbody => ?_⟩
  · rw [h.name_eq]
    exact Text.isFragment_plain Text.isBlank_semicolon hhead
  · rw [h.bodies_eq] at hbody
    obtain ⟨p, hp, rfl⟩ := List.mem_map.1 hbody
    refine Text.isFragment_plain Text.isBlank_semicolon (h.semicolon_not_mem p ?_)
    refine List.mem_append.2 ((List.mem_append.1 hp).imp_right fun hlast => ?_)
    split at hlast
    · cases hlast
    · exact hlast

end SplitInto

/-- **What a block is split into.** A malformed block is a fault of syntax, and
every other is split: its name is the head in its plain form, and its bodies are
the pieces of the rest in theirs, without the last one if that is blank. So there
is a body for each semicolon, and one more if what follows the last of them is not
blank; a piece in front of a semicolon is a body also if it is blank; and neither
a name nor a body has a semicolon or other blanks than single spaces between its
words. -/
theorem ofBlock_splits (block : Text) :
    (Malformed block ∧ ∃ f : Fault, f.IsSyntax ∧ ofBlock block = .error f)
    ∨ (¬ Malformed block ∧ ∃ d ps last, ofBlock block = .ok d ∧ SplitInto block ps last d
      ∧ d.bodies.length = (rest block).count ';' + (if Text.AllBlank last then 0 else 1)
      ∧ (∀ (i : Nat) (p : Text), ps[i]? = some p → Text.AllBlank p → d.bodies[i]? = some [])
      ∧ ∀ t ∈ d.entry, Text.IsFragment ';' t) := by
  by_cases hbad : Malformed block
  · exact .inl ⟨hbad, ofBlock_eq_error hbad⟩
  · obtain ⟨ps, last, hsplit, hlength⟩ := exists_splitInto_read hbad
    refine .inr ⟨hbad, read block, ps, last, ofBlock_eq_ok hbad, hsplit, ?_, ?_, ?_⟩
    · rw [hsplit.length_bodies, hlength]
    · intro i p hp hblank
      rw [hsplit.getElem?_bodies hp, Text.plain_eq_nil_iff.2 hblank]
    · exact hsplit.isFragment fun hsemi => hbad (.inr (.inl hsemi))

/-- An empty body in the middle, one at the end, and a last body that is not
closed. -/
example :
    ofBlock "\n<start>a  b;\t;c;".toList = .ok ⟨"<start>".toList, ["a b".toList, [], ['c']]⟩
      ∧ ofBlock "< b\n> a;; ;".toList = .ok ⟨"< b >".toList, [['a'], [], []]⟩
      ∧ ofBlock "<b>a;c".toList = .ok ⟨"<b>".toList, [['a'], ['c']]⟩ := by
  decide

end Definition

end SentenceForge

import SentenceForge.Proofs.Grammar.Prose

/-!
# Taking a text apart

The scan for blocks goes through a text once and never back. What it finds can
be said without it: a text is prose and blocks in turn, and something behind
them in which no block is closed, and there is one way only of taking it apart
so (`existsUnique_dissects`).

Both ends of a block are forced. It opens at the first brace behind the block
before it, since the prose has none, and it closes at the first brace that may
close it. What is left over may open a block too, but it does not close it, and
so it closes no later one either, which would have to end further behind. Such a
text cannot be continued freely, as what follows may close what was left open. Any
other can, and its blocks stay as they are.
-/

namespace SentenceForge

/-- **A text without a closed block**: nothing opens in it, or nothing closes
behind the character after the first brace that does. -/
def Unclosed (s : Text) : Prop :=
  '\x7b' ∉ s ∨ '\x7d' ∉ s.drop (s.idxOf '\x7b' + 2)

instance : DecidablePred Unclosed := fun _ => inferInstanceAs (Decidable (_ ∨ _))

/-- **A text in parts**: blocks, each with the prose in front of it, and what
follows the last one. -/
structure Dissection where
  /-- The blocks in order, each behind its prose. -/
  parts : List (Text × Text)
  /-- What follows the last block. -/
  tail : Text

namespace Dissection

/-- The parts put together, with the braces around the blocks. -/
def text (d : Dissection) : Text :=
  d.parts.flatMap (fun p => p.1 ++ '\x7b' :: p.2 ++ ['\x7d']) ++ d.tail

/-- **The parts of a text**, taken apart where its blocks open and close. -/
@[mk_iff]
structure Dissects (d : Dissection) (text : Text) : Prop where
  /-- They make up the text. -/
  text_eq : d.text = text
  /-- Nothing opens in the prose. -/
  prose : ∀ p ∈ d.parts, '\x7b' ∉ p.1
  /-- A block has a first character, which may be any. -/
  ne_nil : ∀ p ∈ d.parts, p.2 ≠ []
  /-- Behind that it is not closed. -/
  closes : ∀ p ∈ d.parts, '\x7d' ∉ p.2.tail
  /-- No block is left. -/
  unclosed : Unclosed d.tail

instance (d : Dissection) (text : Text) : Decidable (d.Dissects text) :=
  decidable_of_iff' _ (dissects_iff d text)

end Dissection

/-! ## What has no block -/

/-- A block that was opened is found exactly if it is closed behind its first
character. -/
theorem blocksFrom_opened_eq_nil_iff (s : Text) : blocksFrom .opened s = [] ↔ '\x7d' ∉ s.tail := by
  cases s with
  | nil => simp [blocksFrom]
  | cons c s =>
    constructor
    · intro h hclose
      obtain ⟨u, rest, rfl, hu⟩ := List.eq_append_cons_of_mem hclose
      rw [blocksFrom, blocksFrom_inside [c] hu] at h
      cases h
    · exact blocksFrom_inside_of_not_mem [c]

/-- **A text has no blocks exactly if none is closed in it.** -/
theorem blocks_eq_nil_iff (s : Text) : blocks s = [] ↔ Unclosed s := by
  by_cases hopen : '\x7b' ∈ s
  · obtain ⟨prose, q, rfl, hprose⟩ := List.eq_append_cons_of_mem hopen
    have hdrop : (prose ++ '\x7b' :: q).drop ((prose ++ '\x7b' :: q).idxOf '\x7b' + 2)
        = q.tail := by
      rw [List.idxOf_append_of_notMem hprose, List.idxOf_cons_self, List.drop_append]
      simp
    rw [blocks_append_opening hprose, blocksFrom_opened_eq_nil_iff, Unclosed, hdrop]
    simp
  · exact iff_of_true (blocks_of_not_mem hopen) (.inl hopen)

/-! ## The first part -/

/-- **A text opens with a block in one way only.** -/
theorem FirstBlock.unique {text prose block rest prose' block' rest' : Text}
    (h : FirstBlock text prose block rest) (h' : FirstBlock text prose' block' rest') :
    prose = prose' ∧ block = block' ∧ rest = rest' := by
  obtain ⟨rfl, hprose, hne, hclose⟩ := h
  obtain ⟨heq, hprose', hne', hclose'⟩ := h'
  obtain ⟨c, s, rfl⟩ := List.exists_cons_of_ne_nil hne
  obtain ⟨c', s', rfl⟩ := List.exists_cons_of_ne_nil hne'
  rw [List.append_assoc, List.append_assoc] at heq
  obtain ⟨hfront, hbehind⟩ := Text.append_cons_inj hprose hprose' heq
  -- the first character of a block is any, and what follows ends at a brace
  obtain ⟨rfl, hrest⟩ := List.cons.inj hbehind
  obtain ⟨hblock, hlast⟩ := Text.append_cons_inj hclose hclose' hrest
  exact ⟨hfront, congrArg _ hblock, hlast⟩

namespace Dissection

variable {text : Text}

/-- A text without parts is what is left over. -/
theorem dissects_nil_iff {tail : Text} :
    Dissects ⟨[], tail⟩ text ↔ tail = text ∧ blocks text = [] := by
  constructor
  · rintro ⟨rfl, -, -, -, hunclosed⟩
    exact ⟨rfl, (blocks_eq_nil_iff _).2 hunclosed⟩
  · rintro ⟨rfl, hnone⟩
    exact ⟨rfl, by simp, by simp, by simp, (blocks_eq_nil_iff _).1 hnone⟩

/-- **The first part is the first block**, and the others are those of the text
behind it. -/
theorem dissects_cons_iff {prose block : Text} {parts : List (Text × Text)} {tail : Text} :
    Dissects ⟨(prose, block) :: parts, tail⟩ text
      ↔ ∃ rest, FirstBlock text prose block rest ∧ Dissects ⟨parts, tail⟩ rest := by
  have htext : (⟨(prose, block) :: parts, tail⟩ : Dissection).text
      = prose ++ '\x7b' :: block ++ '\x7d' :: (⟨parts, tail⟩ : Dissection).text := by
    simp [Dissection.text]
  constructor
  · rintro ⟨rfl, hprose, hne, hclose, hunclosed⟩
    rw [List.forall_mem_cons] at hprose hne hclose
    exact ⟨_, ⟨htext, hprose.1, hne.1, hclose.1⟩, rfl, hprose.2, hne.2, hclose.2, hunclosed⟩
  · rintro ⟨rest, ⟨rfl, hprose, hne, hclose⟩, rfl, hproses, hnes, hcloses, hunclosed⟩
    exact ⟨htext, List.forall_mem_cons.2 ⟨hprose, hproses⟩, List.forall_mem_cons.2 ⟨hne, hnes⟩,
      List.forall_mem_cons.2 ⟨hclose, hcloses⟩, hunclosed⟩

/-! ## All parts -/

/-- **Every text can be taken apart.** -/
theorem exists_dissects (text : Text) : ∃ d : Dissection, d.Dissects text := by
  induction text using blocks_induction with
  | none text hnone => exact ⟨⟨[], text⟩, dissects_nil_iff.2 ⟨rfl, hnone⟩⟩
  | block text prose block rest first ih =>
    obtain ⟨⟨parts, tail⟩, hrest⟩ := ih
    exact ⟨⟨(prose, block) :: parts, tail⟩, dissects_cons_iff.2 ⟨rest, first, hrest⟩⟩

/-- **The blocks of the parts are the blocks of the text.** -/
theorem Dissects.blocks_eq {d : Dissection} (h : d.Dissects text) :
    blocks text = d.parts.map Prod.snd := by
  obtain ⟨parts, tail⟩ := d
  induction parts generalizing text with
  | nil => exact (dissects_nil_iff.1 h).2
  | cons p parts ih =>
    obtain ⟨rest, first, hrest⟩ := dissects_cons_iff.1 h
    rw [first.blocks_eq, ih hrest]
    rfl

/-- **A text is taken apart in one way only.** -/
theorem Dissects.unique {d d' : Dissection} (h : d.Dissects text) (h' : d'.Dissects text) :
    d = d' := by
  have hlength : d.parts.length = d'.parts.length := by
    simpa using congrArg List.length (h.blocks_eq.symm.trans h'.blocks_eq)
  obtain ⟨parts, tail⟩ := d
  obtain ⟨parts', tail'⟩ := d'
  induction parts generalizing text parts' with
  | nil =>
    obtain rfl := List.length_eq_zero_iff.1 hlength.symm
    rw [(dissects_nil_iff.1 h).1, (dissects_nil_iff.1 h').1]
  | cons p parts ih =>
    obtain ⟨p', parts', rfl⟩ := List.exists_cons_of_length_eq_add_one hlength.symm
    obtain ⟨rest, first, hrest⟩ := dissects_cons_iff.1 h
    obtain ⟨rest', first', hrest'⟩ := dissects_cons_iff.1 h'
    obtain ⟨hprose, hblock, rfl⟩ := first.unique first'
    obtain ⟨rfl, rfl⟩ := Dissection.mk.inj (ih hrest _ hrest' (Nat.succ.inj hlength))
    rw [Prod.ext hprose hblock]

/-- **Where nothing is left open a text may be continued**, and the blocks of
what follows come behind its own. -/
theorem Dissects.blocks_append {d : Dissection} (h : d.Dissects text) (closed : '\x7b' ∉ d.tail)
    (c : Text) : blocks (text ++ c) = blocks text ++ blocks c := by
  obtain ⟨parts, tail⟩ := d
  induction parts generalizing text with
  | nil =>
    obtain ⟨rfl, hnone⟩ := dissects_nil_iff.1 h
    rw [hnone, Definition.blocks_append_of_not_mem closed, List.nil_append]
  | cons p parts ih =>
    obtain ⟨rest, first, hrest⟩ := dissects_cons_iff.1 h
    have first' : FirstBlock (text ++ c) p.1 p.2 (rest ++ c) :=
      ⟨by rw [first.eq, List.append_assoc, List.cons_append], first.prose, first.ne_nil,
        first.closes⟩
    rw [first'.blocks_eq, first.blocks_eq, ih hrest closed, List.cons_append]

/-- **A text is prose and blocks in one way only**: every text can be taken apart
so that nothing opens in the prose, a block closes as soon as it may and none is
left behind the last, there is no other way to do so, and the blocks found are
the blocks of the text. If moreover nothing opens behind the last block, then
whatever follows the text adds its own blocks to them. -/
theorem existsUnique_dissects (text : Text) :
    (∃! d : Dissection, d.Dissects text)
    ∧ ∀ d : Dissection, d.Dissects text →
      blocks text = d.parts.map Prod.snd
      ∧ ('\x7b' ∉ d.tail → ∀ c, blocks (text ++ c) = blocks text ++ blocks c) := by
  obtain ⟨d, hd⟩ := exists_dissects text
  exact ⟨⟨d, hd, fun d' hd' => hd'.unique hd⟩, fun d' hd' => ⟨hd'.blocks_eq, hd'.blocks_append⟩⟩

/-- A closing brace that opens a block, opening ones inside, prose with a closing
one, and a continuation that is left open. -/
theorem existsUnique_dissects_of_odd_braces :
    let text := "\x7da\x7b\x7d\x7bb\x7dc\x7dd\x7be\x7bf\x7d\x7dg".toList
    let d : Dissection :=
      ⟨[("\x7da".toList, "\x7d\x7bb".toList), ("c\x7dd".toList, "e\x7bf".toList)],
        "\x7dg".toList⟩
    d.Dissects text ∧ (∀ d' : Dissection, d'.Dissects text → d' = d)
      ∧ blocks (text ++ "\x7bh\x7d\x7b\x7d".toList)
        = ["\x7d\x7bb".toList, "e\x7bf".toList, "h".toList] := by
  intro text d
  have hd : d.Dissects text := by decide
  obtain ⟨hunique, hparts⟩ := existsUnique_dissects text
  obtain ⟨hblocks, happend⟩ := hparts d hd
  refine ⟨hd, fun d' hd' => hunique.unique hd' hd, ?_⟩
  rw [happend (by decide), hblocks]
  decide

end Dissection

end SentenceForge

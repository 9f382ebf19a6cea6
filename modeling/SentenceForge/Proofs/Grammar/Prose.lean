import SentenceForge.Proofs.Grammar.Layout
import SentenceForge.Proofs.Text.Respaced
import SentenceForge.Sentence.Basic

/-!
# Prose and blanks around the grammar

What stands between the blocks of a file is prose, and what is blank in it is
layout. Neither should matter, also where the file is no good: a text and the
same with other blanks and other prose make the same grammar, or have the same
fault.

The scan for blocks is seen through where it cuts. A text opens with a block
in one way at most (`FirstBlock`), and a text that does not has no blocks
(`blocks_eq_nil_or`), so texts are taken apart block by block. Changed prose
leaves the blocks as they are, and changed blanks leave them where they are,
since both braces are marks. There is one fault that shows its block as it is
written, and this is where texts with other blanks may be told apart.
-/

namespace SentenceForge

theorem Text.isBlank_opening : Text.isBlank '\x7b' = false := rfl

/-! ## Texts, block by block -/

/-- **The first block of a text**, with the prose in front of it and the text
behind it. -/
@[mk_iff]
structure FirstBlock (text prose block rest : Text) : Prop where
  /-- These are the parts of the text. -/
  eq : text = prose ++ '\x7b' :: block ++ '\x7d' :: rest
  /-- Nothing opens in the prose. -/
  prose : '\x7b' ∉ prose
  /-- There is a first character, which may be any. -/
  ne_nil : block ≠ []
  /-- Behind that the block is not closed. -/
  closes : '\x7d' ∉ block.tail

instance (text prose block rest : Text) : Decidable (FirstBlock text prose block rest) :=
  decidable_of_iff' _ (firstBlock_iff text prose block rest)

/-- The first block of a text is the first of its blocks. -/
theorem FirstBlock.blocks_eq {text prose block rest : Text} (h : FirstBlock text prose block rest) :
    blocks text = block :: blocks rest := by
  obtain ⟨c, s, rfl⟩ := List.exists_cons_of_ne_nil h.ne_nil
  rw [h.eq, List.append_assoc, Definition.blocks_append_of_not_mem h.prose]
  exact blocks_block c h.closes rest

/-- Prose has no blocks. -/
theorem blocks_of_not_mem {prose : Text} (h : '\x7b' ∉ prose) : blocks prose = [] := by
  have hnone := Definition.blocks_append_of_not_mem h []
  rwa [List.append_nil, blocks_nil] at hnone

/-- A block that is not closed is none. -/
theorem blocksFrom_inside_of_not_mem (read : Text) {s : Text} (h : '\x7d' ∉ s) :
    blocksFrom (.inside read) s = [] := by
  induction s generalizing read with
  | nil => rfl
  | cons c s ih =>
    rw [List.mem_cons, not_or] at h
    rw [blocksFrom, if_neg (Ne.symm h.1), ih (c :: read) h.2]

/-- Behind the first brace that opens one a block is read. -/
theorem blocks_append_opening {prose : Text} (h : '\x7b' ∉ prose) (s : Text) :
    blocks (prose ++ '\x7b' :: s) = blocksFrom .opened s := by
  rw [Definition.blocks_append_of_not_mem h, blocks, blocksFrom, if_pos rfl]

/-- **A text has no blocks or a first one.** -/
theorem blocks_eq_nil_or (text : Text) :
    blocks text = [] ∨ ∃ prose block rest, FirstBlock text prose block rest := by
  by_cases hopen : '\x7b' ∈ text
  · obtain ⟨prose, q, rfl, hprose⟩ := List.eq_append_cons_of_mem hopen
    rw [blocks_append_opening hprose]
    cases q with
    | nil => exact .inl rfl
    | cons c s =>
      by_cases hclose : '\x7d' ∈ s
      · obtain ⟨u, rest, rfl, hu⟩ := List.eq_append_cons_of_mem hclose
        exact .inr ⟨prose, c :: u, rest, by simp, hprose, List.cons_ne_nil c u, hu⟩
      · exact .inl (blocksFrom_inside_of_not_mem [c] hclose)
  · exact .inl (blocks_of_not_mem hopen)

/-- **Texts by their blocks**: none, or a first one in front of a text. -/
theorem blocks_induction {motive : Text → Prop} (none : ∀ text, blocks text = [] → motive text)
    (block : ∀ text prose block rest, FirstBlock text prose block rest → motive rest → motive text)
    (text : Text) : motive text := by
  induction hn : (blocks text).length generalizing text with
  | zero => exact none text (List.length_eq_zero_iff.1 hn)
  | succ n ih =>
    rcases blocks_eq_nil_or text with hnone | ⟨prose, b, rest, hfirst⟩
    · rw [hnone] at hn
      cases hn
    · rw [hfirst.blocks_eq] at hn
      exact block text prose b rest hfirst (ih rest (Nat.succ.inj hn))

/-! ## Other prose -/

/-- **A text in other words**: prose that opens no block may stand in place of
the prose in front of a block, and in place of all that follows the last. -/
inductive Reworded : Text → Text → Prop where
  /-- What follows the last block stays as it is. -/
  | kept {t : Text} (none : blocks t = []) : Reworded t t
  /-- What follows the last block is replaced. -/
  | replaced {t t' : Text} (none : blocks t = []) (prose : '\x7b' ∉ t') : Reworded t t'
  /-- The prose in front of a block is replaced, and the block stays. -/
  | block {t t' prose prose' block rest rest' : Text} (first : FirstBlock t prose block rest)
      (first' : FirstBlock t' prose' block rest') (next : Reworded rest rest') : Reworded t t'

/-- **A text in other words has the same blocks.** -/
theorem Reworded.blocks_eq {t t' : Text} (h : Reworded t t') : blocks t = blocks t' := by
  induction h with
  | kept => rfl
  | replaced none prose => rw [none, blocks_of_not_mem prose]
  | block first first' _ ih => rw [first.blocks_eq, first'.blocks_eq, ih]

/-! ## Other blanks -/

open Text (Respaced)

/-- **A text with other blanks has its first block in the same place.** -/
theorem FirstBlock.respaced {t t' prose block rest : Text} (h : FirstBlock t prose block rest)
    (ht : Respaced t t') :
    ∃ prose' block' rest', FirstBlock t' prose' block' rest' ∧ Respaced block block'
      ∧ Respaced rest rest' := by
  obtain ⟨rfl, hprose, hne, hclose⟩ := h
  obtain ⟨c, s, rfl⟩ := List.exists_cons_of_ne_nil hne
  rw [List.append_assoc] at ht
  obtain ⟨prose', q, rfl, hprose', -, hq⟩ := ht.of_append_cons Text.isBlank_opening hprose
  by_cases hc : c = '\x7d'
  · -- a brace that comes first is in the block, and the next one closes it
    subst hc
    obtain ⟨e, q, rfl, -, he, hq⟩ :=
      Respaced.of_append_cons (p := []) Text.isBlank_brace List.not_mem_nil hq
    obtain ⟨s', rest', rfl, hs', hs, hrest⟩ := hq.of_append_cons Text.isBlank_brace hclose
    obtain rfl : e = [] := by
      by_contra hne
      exact he.symm.ne_nil hne rfl
    exact ⟨prose', '\x7d' :: s', rest', ⟨by simp, hprose', List.cons_ne_nil _ _, hs'⟩,
      .char Text.isBlank_brace hs, hrest⟩
  · have hclose' : '\x7d' ∉ c :: s := by
      rw [List.mem_cons, not_or]
      exact ⟨Ne.symm hc, hclose⟩
    obtain ⟨block', rest', rfl, hblock', hblock, hrest⟩ :=
      hq.of_append_cons Text.isBlank_brace hclose'
    exact ⟨prose', block', rest', ⟨by simp, hprose', hblock.ne_nil hne,
      fun hm => hblock' (List.mem_of_mem_tail hm)⟩, hblock, hrest⟩

/-- **A text with other blanks has the same blocks with other blanks.** -/
theorem forall₂_blocks_of_respaced {t t' : Text} (h : Respaced t t') :
    List.Forall₂ Respaced (blocks t) (blocks t') := by
  induction t using blocks_induction generalizing t' with
  | none t hnone =>
    rcases blocks_eq_nil_or t' with hnone' | ⟨prose', b', rest', hfirst'⟩
    · rw [hnone, hnone']
      exact .nil
    · -- a block of `t'` is also one of `t`
      obtain ⟨prose, b, rest, hfirst, -⟩ := hfirst'.respaced h.symm
      rw [hfirst.blocks_eq] at hnone
      cases hnone
  | block t prose b rest hfirst ih =>
    obtain ⟨prose', b', rest', hfirst', hb, hrest⟩ := hfirst.respaced h
    rw [hfirst.blocks_eq, hfirst'.blocks_eq]
    exact .cons hb (ih hrest)

namespace Definition

/-- **A block with other blanks makes the same definition or has the same
fault**, unless it names nothing: that fault shows the block. -/
theorem ofBlock_of_respaced {b b' : Text} (h : Respaced b b') :
    ofBlock b = ofBlock b'
      ∨ (ofBlock b = .error (.unnamed b) ∧ ofBlock b' = .error (.unnamed b')) := by
  by_cases hclose : '>' ∈ b
  · left
    obtain ⟨p, r, rfl, hp⟩ := List.eq_append_cons_of_mem hclose
    obtain ⟨p', r', rfl, hp', hname, hrest⟩ := h.of_append_cons Text.isBlank_close hp
    have hsemi : Respaced (p ++ ['>'] ++ ';' :: r) (p' ++ ['>'] ++ ';' :: r') :=
      (hname.append_cons Text.isBlank_close .nil).append_cons Text.isBlank_semicolon hrest
    have hfragments : fragments (p ++ ['>']) r = fragments (p' ++ ['>']) r' := by
      rw [fragments, hsemi.plain_eq, fragments]
    rw [ofBlock, ofBlock, dropWhile_append_close hp, dropWhile_append_close hp']
    simp only [takeWhile_append_close hp, takeWhile_append_close hp', hfragments]
  · right
    exact ⟨ofBlock_of_not_mem hclose,
      ofBlock_of_not_mem (mt (h.mem_iff Text.isBlank_close).2 hclose)⟩

/-- **Blocks with other blanks are read alike**, up to the first that names
nothing. -/
theorem mapM_ofBlock_of_respaced {bs bs' : List Text} (h : List.Forall₂ Respaced bs bs') :
    bs.mapM ofBlock = bs'.mapM ofBlock
      ∨ ∃ b b', (b, b') ∈ bs.zip bs' ∧ Respaced b b' ∧ bs.mapM ofBlock = .error (.unnamed b)
        ∧ bs'.mapM ofBlock = .error (.unnamed b') := by
  induction h with
  | nil => exact .inl rfl
  | @cons b b' bs bs' hb _ ih =>
    rw [List.mapM_cons, List.mapM_cons]
    rcases ofBlock_of_respaced hb with heq | ⟨hunnamed, hunnamed'⟩
    · rw [heq]
      cases ofBlock b' with
      | error f => exact .inl rfl
      | ok d =>
        rcases ih with hrest | ⟨c, c', hmem, hc, hunnamed, hunnamed'⟩
        · rw [hrest]
          exact .inl rfl
        · rw [hunnamed, hunnamed']
          exact .inr ⟨c, c', List.mem_cons_of_mem _ hmem, hc, rfl, rfl⟩
    · rw [hunnamed, hunnamed']
      exact .inr ⟨b, b', List.mem_cons_self, hb, rfl, rfl⟩

end Definition

/-! ## Layout and prose do not matter -/

/-- **A text in another layout**: with other blanks, and then in other
words. -/
def Relaid (text edited : Text) : Prop := ∃ spaced, Respaced text spaced ∧ Reworded spaced edited

/-- A text in another layout has the same blocks with other blanks. -/
theorem Relaid.blocks {text edited : Text} (h : Relaid text edited) :
    List.Forall₂ Respaced (blocks text) (blocks edited) := by
  obtain ⟨spaced, hspaced, hreworded⟩ := h
  rw [← hreworded.blocks_eq]
  exact forall₂_blocks_of_respaced hspaced

/-- **Layout and prose do not matter.** If the blanks of a text are changed, and
then the prose around its blocks, the text makes the same grammar as before
with the same notices, or none for the same fault; and it makes the same
sentences, with the same choices, the same notices, the same error if there is
one, and the same memory of the source. What can be told apart is the fault of a
block without a name, which shows the block. Both texts have it then, in the
same place, and nothing was said or chosen. -/
theorem Grammar.ofText_of_relaid {text edited : Text} (relaid : Relaid text edited) :
    (ofText edited = ofText text
      ∧ ∀ (σ : Type) (source : Source σ) (settings : Settings) (s : σ),
        sentenceOfText edited source settings s = sentenceOfText text source settings s)
    ∨ ∃ b b', (b, b') ∈ (blocks text).zip (blocks edited) ∧ Respaced b b'
      ∧ ofText text = .fail (.grammar (.unnamed b))
      ∧ ofText edited = .fail (.grammar (.unnamed b'))
      ∧ ∀ (σ : Type) (source : Source σ) (settings : Settings) (s : σ),
        sentenceOfText text source settings s = .failed (.grammar (.unnamed b)) s
          ∧ sentenceOfText edited source settings s = .failed (.grammar (.unnamed b')) s := by
  have hfail : ∀ {t b : Text}, Definition.ofText t = .error (.unnamed b) →
      ofText t = .fail (.grammar (.unnamed b)) := by
    intro t b h
    rw [ofText, h]
  have hsentence : ∀ {t : Text} {f : Fault}, ofText t = .fail (.grammar f) →
      ∀ (σ : Type) (source : Source σ) (settings : Settings) (s : σ),
        sentenceOfText t source settings s = .failed (.grammar f) s := by
    intro t f h σ source settings s
    rw [sentenceOfText, startable, h]
    rfl
  rcases Definition.mapM_ofBlock_of_respaced relaid.blocks with
    heq | ⟨b, b', hmem, hb, hunnamed, hunnamed'⟩
  · left
    have hsame : ofText edited = ofText text := by
      rw [ofText, ofText, Definition.ofText, Definition.ofText, heq]
    refine ⟨hsame, fun σ source settings s => ?_⟩
    rw [sentenceOfText, sentenceOfText, startable, startable, hsame]
  · right
    have htext := hfail hunnamed
    have hedited := hfail hunnamed'
    exact ⟨b, b', hmem, hb, htext, hedited, fun σ source settings s =>
      ⟨hsentence htext σ source settings s, hsentence hedited σ source settings s⟩⟩

/-- Blanks that are no spaces, a blank for the first character of a block, prose
behind the last block that would open another, and a name that is cut short in
both. -/
theorem Grammar.ofText_of_relaid_of_unclosed :
    let text := "on \x7b <start>a\t\tb;\x7d and \x7b<b ;>\x7d so \x7bon".toList
    let edited := "\x7b\n\n<start>a b;\x7d\x7d\x7b<b\u2003;>\x7d.".toList
    Relaid text edited
      ∧ (ofText text).result = .error (.grammar (.malformedName "<b".toList))
      ∧ ofText edited = ofText text := by
  intro text edited
  have spaced : Respaced text "on \x7b\n\n<start>a b;\x7d and \x7b<b\u2003;>\x7d so \x7bon".toList :=
    by decide
  have first : FirstBlock "on \x7b\n\n<start>a b;\x7d and \x7b<b\u2003;>\x7d so \x7bon".toList
      "on ".toList "\n\n<start>a b;".toList " and \x7b<b\u2003;>\x7d so \x7bon".toList := by decide
  have first' : FirstBlock edited [] "\n\n<start>a b;".toList "\x7d\x7b<b\u2003;>\x7d.".toList := by decide
  have second : FirstBlock " and \x7b<b\u2003;>\x7d so \x7bon".toList
      " and ".toList "<b\u2003;>".toList " so \x7bon".toList := by decide
  have second' : FirstBlock "\x7d\x7b<b\u2003;>\x7d.".toList
      ['\x7d'] "<b\u2003;>".toList ['.'] := by decide
  have relaid : Relaid text edited :=
    ⟨_, spaced, .block first first' (.block second second' (.replaced (by decide) (by decide)))⟩
  refine ⟨relaid, by rfl, ?_⟩
  rcases ofText_of_relaid relaid with ⟨hsame, -⟩ | ⟨b, -, -, -, hunnamed, -⟩
  · exact hsame
  · have hresult := congrArg Logged.result hunnamed
    cases hresult

end SentenceForge

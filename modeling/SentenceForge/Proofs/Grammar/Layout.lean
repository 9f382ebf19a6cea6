import Mathlib.Tactic.MkIffOfInductiveProp
import SentenceForge.Grammar.Printer
import SentenceForge.Proofs.Grammar.Built
import SentenceForge.Proofs.Grammar.Definition

/-!
# Layouts of a grammar

The format leaves much to the author of a file: what stands around the
blocks, which blanks stand between words and how many, and whether the
last body is closed. A text that writes names with bodies in any of these
ways is a layout of them (`LaysOut`), and reading forgets which it was.

What is laid out has to be proper: a name that can be told from what
follows it, tokens that are words and hold neither of the characters that
end a body and a block, and no name twice. Of that no part can be missed,
and nothing else is asked – a brace may open inside a name or a token, and
a token may stand right behind the name. A body without tokens is a body,
but has to be closed by its semicolon to be seen.
-/

namespace SentenceForge

/-! ## What can be laid out -/

/-- **A proper name** opens with `<`, closes with its only `>`, has
something in between, and is free of semicolons, closing braces and of
blanks other than single spaces. -/
@[mk_iff]
structure ProperName (name : Text) : Prop where
  /-- It opens with an angle bracket. -/
  opens : name.head? = some '<'
  /-- It closes with one. -/
  closes : name.getLast? = some '>'
  /-- Something is in between. -/
  long : 3 ≤ name.length
  /-- It does not close before its end. -/
  close_not_mem : '>' ∉ name.dropLast
  /-- It has no semicolon. -/
  semicolon_not_mem : ';' ∉ name
  /-- It has no closing brace. -/
  brace_not_mem : '\x7d' ∉ name
  /-- Its blanks are single spaces. -/
  singleSpaced : Text.SingleSpaced name

/-- **A proper token** is a word free of semicolons and closing braces. -/
@[mk_iff]
structure ProperToken (t : Text) : Prop where
  /-- It is a word. -/
  isWord : Text.IsWord t
  /-- It has no semicolon. -/
  semicolon_not_mem : ';' ∉ t
  /-- It has no closing brace. -/
  brace_not_mem : '\x7d' ∉ t

/-- **Proper names with bodies**: all names and tokens are proper, no name
is without a body, and no two names are the same. -/
@[mk_iff]
structure Proper (es : List (Text × List (List Text))) : Prop where
  /-- The names are proper. -/
  names : ∀ e ∈ es, ProperName e.1
  /-- The tokens are proper. -/
  tokens : ∀ e ∈ es, ∀ ts ∈ e.2, ∀ t ∈ ts, ProperToken t
  /-- Every name has a body. -/
  bodies : ∀ e ∈ es, e.2 ≠ []
  /-- The names are different. -/
  distinct : (es.map fun e => Text.fold e.1).Nodup

instance : DecidablePred ProperName := fun name => decidable_of_iff' _ (properName_iff name)

instance : DecidablePred ProperToken := fun t => decidable_of_iff' _ (properToken_iff t)

instance : DecidablePred Proper := fun es => decidable_of_iff' _ (proper_iff es)

/-! ## Layouts -/

/-- **A text lays out bodies**: the tokens of each spread over the text in
front of its semicolon. The last semicolon may be missing if the last body
has tokens. -/
inductive LaysBodies : List (List Text) → Text → Prop where
  /-- No body is left. -/
  | nil {b : Text} (hb : Text.AllBlank b) : LaysBodies [] b
  /-- The last body is not closed. -/
  | last {ts : List Text} {s : Text} (hne : ts ≠ []) (hs : Text.Spreads ts s) :
      LaysBodies [ts] s
  /-- A body is closed. -/
  | cons {ts : List Text} {tss : List (List Text)} {s r : Text} (hs : Text.Spreads ts s)
      (hr : LaysBodies tss r) : LaysBodies (ts :: tss) (s ++ ';' :: r)

/-- **A text lays out a name with bodies** as what stands between the
braces: blanks, the name and its bodies. -/
def LaysBlock (e : Text × List (List Text)) (block : Text) : Prop :=
  ∃ b r, Text.AllBlank b ∧ LaysBodies e.2 r ∧ block = b ++ e.1 ++ r

/-- **A text lays out names with bodies**: a block for each in order, and
prose around them that opens no block. -/
inductive LaysOut : List (Text × List (List Text)) → Text → Prop where
  /-- No block is left. -/
  | nil {prose : Text} (hprose : '\x7b' ∉ prose) : LaysOut [] prose
  /-- A block with prose in front of it. -/
  | cons {e : Text × List (List Text)} {es : List (Text × List (List Text))}
      {prose block rest : Text} (hprose : '\x7b' ∉ prose) (hblock : LaysBlock e block)
      (hrest : LaysOut es rest) :
      LaysOut (e :: es) (prose ++ '\x7b' :: block ++ '\x7d' :: rest)

namespace Definition

/-- The definition of a name with bodies given as tokens. -/
def ofTokens (e : Text × List (List Text)) : Definition :=
  ⟨e.1, e.2.map (Text.joinWith [' '])⟩

/-! ## Reading a block that is laid out -/

variable {e : Text × List (List Text)} {tss : List (List Text)} {s block text : Text}

/-- Fragments behind another are cut off at the end as before. -/
theorem withoutBlankLast_cons (f : Text) {fs : List Text} (h : fs ≠ []) :
    withoutBlankLast (f :: fs) = f :: withoutBlankLast fs := by
  obtain ⟨e, es, rfl⟩ := List.exists_cons_of_ne_nil h
  unfold withoutBlankLast
  rw [List.getLast?_cons_cons]
  split <;> rfl

/-- **The bodies of a layout are read back.** -/
theorem bodiesOf_of_laysBodies (h : LaysBodies tss s) (hsemi : ∀ ts ∈ tss, ∀ t ∈ ts, ';' ∉ t) :
    bodiesOf s = tss.map (Text.joinWith [' ']) := by
  induction h with
  | @nil b hb =>
    -- the blanks are one piece, which is blank and the last
    have hnot : ';' ∉ b := hb.not_mem Text.isBlank_semicolon
    unfold bodiesOf
    rw [Text.pieces_of_not_mem hnot, List.map_singleton, Text.plain_eq_nil_iff.2 hb]
    rfl
  | @last ts s hne hs =>
    rw [List.forall_mem_singleton] at hsemi
    -- a last piece with words in it is not dropped
    have hplain : Text.plain s ≠ [] := by
      rw [ne_eq, Text.plain_eq_nil_iff, ← Text.words_eq_nil_iff, hs.words_eq]
      exact hne
    unfold bodiesOf withoutBlankLast
    rw [Text.pieces_of_not_mem (hs.not_mem Text.isBlank_semicolon hsemi), List.map_singleton,
      if_neg (by simpa using hplain), hs.plain_eq]
    rfl
  | @cons ts tss s r hs hr ih =>
    rw [List.forall_mem_cons] at hsemi
    have hne : (Text.pieces ';' r).map Text.plain ≠ [] := by
      rw [ne_eq, List.map_eq_nil_iff]
      exact Text.pieces_ne_nil ';' r
    have hnot : ';' ∉ s := hs.not_mem Text.isBlank_semicolon hsemi.1
    rw [bodiesOf, Text.pieces_append_cons hnot, List.map_cons, withoutBlankLast_cons _ hne,
      hs.plain_eq, List.map_cons, ← ih hsemi.2, bodiesOf]

/-- Bodies that are laid out close no block. -/
theorem brace_not_mem_of_laysBodies (h : LaysBodies tss s)
    (hbrace : ∀ ts ∈ tss, ∀ t ∈ ts, '\x7d' ∉ t) : '\x7d' ∉ s := by
  induction h with
  | nil hb => exact hb.not_mem Text.isBlank_brace
  | last hne hs =>
    rw [List.forall_mem_singleton] at hbrace
    exact hs.not_mem Text.isBlank_brace hbrace
  | cons hs hr ih =>
    rw [List.forall_mem_cons] at hbrace
    have hsemi : '\x7d' ≠ ';' := by decide
    simp only [List.mem_append, List.mem_cons, not_or]
    exact ⟨hs.not_mem Text.isBlank_brace hbrace.1, hsemi, ih hbrace.2⟩

/-- **A block that is laid out is read back.** -/
theorem ofBlock_of_laysBlock (hname : ProperName e.1)
    (hsemi : ∀ ts ∈ e.2, ∀ t ∈ ts, ';' ∉ t) (h : LaysBlock e block) :
    ofBlock block = .ok (ofTokens e) := by
  obtain ⟨b, r, hb, hr, rfl⟩ := h
  -- the head is the name with the blanks in front of it, which its plain form loses
  have hcut : e.1 = e.1.dropLast ++ ['>'] :=
    (List.dropLast_append_getLast? '>' hname.closes).symm
  have hopen : '>' ∉ b ++ e.1.dropLast := by
    rw [List.mem_append, not_or]
    exact ⟨hb.not_mem Text.isBlank_close, hname.close_not_mem⟩
  have hblock : b ++ e.1 ++ r = (b ++ e.1.dropLast) ++ '>' :: r := by
    conv_lhs => rw [hcut]
    simp
  have hhead : head (b ++ e.1 ++ r) = b ++ e.1 := by
    rw [hblock, head_append hopen, List.append_assoc, ← hcut]
  have hrest : rest (b ++ e.1 ++ r) = r := by rw [hblock, rest_append hopen]
  have hplain : Text.plain (b ++ e.1) = e.1 := by
    rw [Text.plain_append_of_allBlank hb]
    refine hname.singleSpaced.plain_eq ?_ ?_
    · rw [hname.opens]
      rintro c ⟨⟩
      exact Text.isBlank_open
    · rw [hname.closes]
      rintro c ⟨⟩
      exact Text.isBlank_close
  have hwell : ¬ Malformed (b ++ e.1 ++ r) := by
    simp only [Malformed, hhead, hplain, not_or, not_not, hname.opens, true_and, not_lt]
    refine ⟨by rw [hblock]; simp, ?_, hname.long⟩
    rw [List.mem_append, not_or]
    exact ⟨hb.not_mem Text.isBlank_semicolon, hname.semicolon_not_mem⟩
  rw [ofBlock_eq_ok hwell, read, hhead, hplain, hrest, bodiesOf_of_laysBodies hr hsemi, ofTokens]

/-! ## Reading a text that is laid out -/

/-- Prose that opens no block is passed over. -/
theorem blocks_append_of_not_mem {prose : Text} (h : '\x7b' ∉ prose) (s : Text) :
    blocks (prose ++ s) = blocks s := by
  induction prose with
  | nil => rfl
  | cons c prose ih =>
    rw [List.mem_cons, not_or] at h
    rw [List.cons_append, blocks_cons_of_ne (Ne.symm h.1), ih h.2]

/-- **A block that is laid out is the next block.** -/
theorem blocks_of_laysBlock (hname : ProperName e.1)
    (hbrace : ∀ ts ∈ e.2, ∀ t ∈ ts, '\x7d' ∉ t) (h : LaysBlock e block) (rest : Text) :
    blocks ('\x7b' :: block ++ '\x7d' :: rest) = block :: blocks rest := by
  have hnot : '\x7d' ∉ block := by
    obtain ⟨b, r, hb, hr, rfl⟩ := h
    simp only [List.mem_append, not_or]
    exact ⟨⟨hb.not_mem Text.isBlank_brace, hname.brace_not_mem⟩,
      brace_not_mem_of_laysBodies hr hbrace⟩
  have hne : block ≠ [] := by
    obtain ⟨b, r, -, -, rfl⟩ := h
    intro hnil
    have hlong := hname.long
    rw [List.append_eq_nil_iff, List.append_eq_nil_iff] at hnil
    rw [hnil.1.2] at hlong
    exact absurd hlong (by decide)
  obtain ⟨c, s, rfl⟩ := List.exists_cons_of_ne_nil hne
  exact blocks_block c (fun hm => hnot (List.mem_cons_of_mem c hm)) rest

/-- **The definitions of a layout are read back**, one by one. -/
theorem ofText_of_laysOut {es : List (Text × List (List Text))} (h : LaysOut es text)
    (hnames : ∀ e ∈ es, ProperName e.1)
    (htokens : ∀ e ∈ es, ∀ ts ∈ e.2, ∀ t ∈ ts, ProperToken t) :
    ofText text = .ok (es.map ofTokens) := by
  induction h with
  | @nil prose hprose =>
    have hnone := blocks_append_of_not_mem hprose []
    rw [List.append_nil] at hnone
    rw [ofText, hnone]
    rfl
  | @cons e es prose block rest hprose hblock _ ih =>
    rw [List.forall_mem_cons] at hnames htokens
    have hblocks : blocks (prose ++ '\x7b' :: block ++ '\x7d' :: rest)
        = block :: blocks rest := by
      rw [List.append_assoc, blocks_append_of_not_mem hprose]
      exact blocks_of_laysBlock hnames.1
        (fun ts hts t ht => (htokens.1 ts hts t ht).brace_not_mem) hblock rest
    have hfirst := ofBlock_of_laysBlock hnames.1
      (fun ts hts t ht => (htokens.1 ts hts t ht).semicolon_not_mem) hblock
    have hrest : (blocks rest).mapM ofBlock = .ok (es.map ofTokens) := ih hnames.2 htokens.2
    rw [ofText, hblocks, List.mapM_cons, hfirst, hrest]
    rfl

/-- The words of a body given as tokens are the tokens. -/
theorem words_of_mem_tokens {ts : List Text} (h : ∀ t ∈ ts, ProperToken t) :
    Text.words (Text.joinWith [' '] ts) = ts :=
  (Text.spreads_joinWith_space fun t ht => (h t ht).isWord).words_eq

/-- **Proper tokens are read back** from the definition made of them. -/
theorem tokens_ofTokens (h : ∀ ts ∈ e.2, ∀ t ∈ ts, ProperToken t) : (ofTokens e).tokens = e := by
  have hbodies : (e.2.map (Text.joinWith [' '])).map Text.words = e.2 := by
    rw [List.map_map]
    exact (List.map_congr_left fun ts hts => words_of_mem_tokens (h ts hts)).trans
      (List.map_id e.2)
  show (e.1, (e.2.map (Text.joinWith [' '])).map Text.words) = e
  rw [hbodies]

/-- The productions of a name with bodies given as tokens. -/
theorem productions_ofTokens (h : ∀ ts ∈ e.2, ∀ t ∈ ts, ProperToken t) :
    (ofTokens e).productions = e.2.map fun ts => ⟨e.1, ts.map Symbol.ofToken⟩ := by
  show (e.2.map _).map _ = _
  rw [List.map_map]
  refine List.map_congr_left fun ts hts => ?_
  show (⟨e.1, (Text.words (Text.joinWith [' '] ts)).map Symbol.ofToken⟩ : Production) = _
  rw [words_of_mem_tokens (h ts hts)]

end Definition

namespace Proper

open Definition

variable {es : List (Text × List (List Text))} (h : Proper es)
include h

/-- Proper names are told apart as definitions. -/
theorem nodup_map_key : ((es.map ofTokens).map key).Nodup := by
  rw [List.map_map]
  exact h.distinct

/-- The productions of proper names with bodies. -/
theorem flatMap_productions :
    (es.map ofTokens).flatMap Definition.productions
      = es.flatMap fun e => e.2.map fun ts => ⟨e.1, ts.map Symbol.ofToken⟩ := by
  rw [List.flatMap_map]
  exact List.flatMap_congr fun e he => productions_ofTokens (h.tokens e he)

/-- **Proper names with bodies are listed as they are.** -/
theorem toList_tokenLists :
    (Grammar.ofDefinitions (es.map ofTokens)).tokenLists.toList = es := by
  have hall : (es.map ofTokens).filter (·.bodies ≠ []) = es.map ofTokens := by
    refine List.filter_eq_self.2 fun d hd => ?_
    obtain ⟨e, he, rfl⟩ := List.mem_map.1 hd
    simpa [ofTokens] using h.bodies e he
  rw [Grammar.toList_tokenLists_ofDefinitions h.nodup_map_key, hall, List.map_map]
  exact (List.map_congr_left fun e he => tokens_ofTokens (h.tokens e he)).trans (List.map_id es)

/-- **A layout of proper names makes their grammar**, and nothing is said
of it but its size. -/
theorem ofText_of_laysOut (hne : es ≠ []) {text : Text} (hl : LaysOut es text) :
    Grammar.ofText text
      = ⟨[.built es.length ((es.map ofTokens).flatMap Definition.productions).length],
        .ok (Grammar.ofDefinitions (es.map ofTokens))⟩ := by
  have hps : (es.map ofTokens).flatMap Definition.productions ≠ [] := by
    obtain ⟨e, es, rfl⟩ := List.exists_cons_of_ne_nil hne
    have hbodies := h.bodies e List.mem_cons_self
    rw [h.flatMap_productions, List.flatMap_cons, ne_eq, List.append_eq_nil_iff,
      List.map_eq_nil_iff]
    exact fun hnil => hbodies hnil.1
  have hnodup := h.nodup_map_key
  rw [Grammar.ofText_of_read (Definition.ofText_of_laysOut hl h.names h.tokens),
    Grammar.ofEntries_definitions, kept_of_nodup hnodup, if_neg hps,
    redefinitions_of_nodup hnodup fun d _ => List.not_mem_nil, List.length_map]
  rfl

end Proper

/-! ## Reading back -/

/-- A symbol refers to a name if its token opens with `<` and closes with a
`>` of its own. -/
theorem Symbol.ofToken_isReference_iff (t : Text) :
    (∃ name, Symbol.ofToken t = .reference name)
      ↔ 2 ≤ t.length ∧ t.head? = some '<' ∧ t.getLast? = some '>' := by
  have href : isReference t = true
      ↔ 2 ≤ t.length ∧ t.head? = some '<' ∧ t.getLast? = some '>' := by
    simp [isReference, and_assoc]
  rw [← href, Symbol.ofToken]
  cases isReference t with
  | true => simp
  | false => simp

/-- **Whatever its layout, a grammar is read back**: nothing is said but
its size, its names and bodies are those that were laid out and in the
same order, the symbols are the tokens, and the start is the name that was
laid out for it, if one was. -/
theorem Grammar.ofText_reads_back {es : List (Text × List (List Text))} (proper : Proper es)
    (nonempty : es ≠ []) {text : Text} (laid : LaysOut es text) :
    ∃ g, ofText text = ⟨[.built es.length g.productions.length], .ok g⟩
      ∧ g.tokenLists.toList = es
      ∧ (g.productions = es.flatMap fun e => e.2.map fun ts => ⟨e.1, ts.map Symbol.ofToken⟩)
      ∧ (∀ p ∈ g.productions, ∀ x ∈ p.body, (∃ name, x = .reference name)
          ↔ 2 ≤ x.token.length ∧ x.token.head? = some '<' ∧ x.token.getLast? = some '>')
      ∧ (∀ e ∈ es, Text.fold e.1 = Text.fold startName → g.start = e.1)
      ∧ ((∀ e ∈ es, Text.fold e.1 ≠ Text.fold startName) → g.start = startName)
      ∧ ∀ e ∈ es, ∀ name, Text.fold name = Text.fold e.1 →
          g.alternatives name = e.2.map fun ts => ⟨e.1, ts.map Symbol.ofToken⟩ := by
  have hps : (ofDefinitions (es.map Definition.ofTokens)).productions
      = es.flatMap fun e => e.2.map fun ts => ⟨e.1, ts.map Symbol.ofToken⟩ :=
    proper.flatMap_productions
  -- a production carries the name of an entry, and every entry has one
  have hentry : ∀ p ∈ (ofDefinitions (es.map Definition.ofTokens)).productions,
      ∃ e ∈ es, p.name = e.1 := by
    intro p hp
    rw [hps, List.mem_flatMap] at hp
    obtain ⟨e, he, hp⟩ := hp
    obtain ⟨ts, -, rfl⟩ := List.mem_map.1 hp
    exact ⟨e, he, rfl⟩
  have hprod : ∀ e ∈ es, ∃ p ∈ (ofDefinitions (es.map Definition.ofTokens)).productions,
      p.name = e.1 := by
    intro e he
    obtain ⟨ts, hts⟩ := List.exists_mem_of_ne_nil _ (proper.bodies e he)
    rw [hps]
    exact ⟨_, List.mem_flatMap.2 ⟨e, he, List.mem_map_of_mem hts⟩, rfl⟩
  refine ⟨_, proper.ofText_of_laysOut nonempty laid, proper.toList_tokenLists, hps, ?_, ?_, ?_, ?_⟩
  · intro p hp x hx
    obtain ⟨-, hsymbol⟩ := isWord_of_mem_body hp hx
    rw [← Symbol.ofToken_isReference_iff, ← hsymbol]
  · intro e he hstart
    obtain ⟨p, hp, hname⟩ := hprod e he
    obtain ⟨q, hq, hfold, hwritten⟩ := exists_startOf_eq hp (hname ▸ hstart)
    obtain ⟨e', he', hname'⟩ := hentry q hq
    have hsame : e' = e :=
      List.inj_on_of_nodup_map proper.distinct he' he (by rw [← hname', hfold, hstart])
    exact hwritten.trans (hsame ▸ hname')
  · intro hstart
    refine startOf_eq_startName fun p hp => ?_
    obtain ⟨e, he, hname⟩ := hentry p hp
    exact hname ▸ hstart e he
  · intro e he name hname
    have hfilter : (es.map Definition.ofTokens).filter (·.key = Text.fold e.1)
        = [Definition.ofTokens e] :=
      Definition.filter_of_nodup proper.nodup_map_key (List.mem_map_of_mem he)
    rw [alternatives_ofDefinitions, hname, hfilter, List.flatMap_singleton,
      Definition.productions_ofTokens (proper.tokens e he)]

/-- A token right behind a name, an empty body, a brace for a token and a
last body that is not closed. -/
theorem Grammar.ofText_reads_back_of_glued :
    ∃ g, ofText "x\x7d\x7b\n<start>a  <B> ;; \x7dy\x7b<b c> \x7b\x7d".toList
        = ⟨[.built 2 g.productions.length], .ok g⟩
      ∧ g.tokenLists.toList = [("<start>".toList, [["a".toList, "<B>".toList], []]),
        ("<b c>".toList, [["\x7b".toList]])] := by
  have proper : Proper [("<start>".toList, [["a".toList, "<B>".toList], []]),
      ("<b c>".toList, [["\x7b".toList]])] := by decide
  have first : LaysBodies [["a".toList, "<B>".toList], []] "a  <B> ;; ".toList :=
    .cons (s := "a  <B> ".toList) (r := "; ".toList) (Text.words_eq_iff.1 (by decide))
      (.cons (s := []) (Text.words_eq_iff.1 (by decide)) (.nil (by decide)))
  have second : LaysBodies [["\x7b".toList]] " \x7b".toList :=
    .last (by decide) (Text.words_eq_iff.1 (by decide))
  have laid : LaysOut [("<start>".toList, [["a".toList, "<B>".toList], []]),
      ("<b c>".toList, [["\x7b".toList]])]
      ("x\x7d".toList ++ '\x7b' :: "\n<start>a  <B> ;; ".toList ++ '\x7d' ::
        ("y".toList ++ '\x7b' :: "<b c> \x7b".toList ++ '\x7d' :: [])) :=
    .cons (by decide) ⟨"\n".toList, _, by decide, first, by decide⟩
      (.cons (by decide) ⟨[], _, by decide, second, by decide⟩ (.nil (by decide)))
  obtain ⟨g, hg, hlists, -⟩ := ofText_reads_back proper (by decide) laid
  exact ⟨g, hg, hlists⟩

end SentenceForge

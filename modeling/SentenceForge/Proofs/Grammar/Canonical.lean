import SentenceForge.Proofs.Grammar.Layout

/-!
# The written form is a fixpoint

Whatever a text looks like, if it is accepted then its grammar could have
been written down: its names and tokens are proper, so the written form is
a layout of them and reads back as the grammar it was written from.

Two characters decide this. A semicolon cannot stay in a name, since the
block is malformed then, nor in a token, since it ends the body. A closing
brace ends the block, but for one place: right behind the opening brace it
is part of the block. There it is the first character of the name, which
then does not open with `<`, or is in front of the name – and the block is
malformed either way. So no name and no token has one.

A definition that was overridden, or has no bodies, leaves nothing in the
grammar and nothing in the written form.
-/

namespace SentenceForge

/-! ## What a block holds -/

/-- What a scan has read of a block has no closing brace behind its first
character. -/
def BlockScan.Unclosed : BlockScan → Prop
  | .outside => True
  | .opened => True
  | .inside read => ∃ c r, read.reverse = c :: r ∧ '\x7d' ∉ r

/-- What a scan finds has no closing brace behind its first character, if
what it has read has none. -/
theorem exists_cons_of_mem_blocksFrom {scan : BlockScan} {s b : Text}
    (h : b ∈ blocksFrom scan s) (hscan : scan.Unclosed) : ∃ c r, b = c :: r ∧ '\x7d' ∉ r := by
  induction s generalizing scan with
  | nil => cases scan <;> exact absurd h List.not_mem_nil
  | cons d s ih =>
    cases scan with
    | outside =>
      unfold blocksFrom at h
      split at h
      · exact ih h trivial
      · exact ih h trivial
    | opened => exact ih h ⟨d, [], rfl, List.not_mem_nil⟩
    | inside read =>
      obtain ⟨c, r, hread, hr⟩ := hscan
      unfold blocksFrom at h
      split at h
      · rcases List.mem_cons.1 h with rfl | h
        · exact ⟨c, r, hread, hr⟩
        · exact ih h trivial
      · next hd =>
        refine ih h ⟨c, r ++ [d], by rw [List.reverse_cons, hread, List.cons_append], ?_⟩
        simpa [hr] using Ne.symm hd

/-- **A block has no closing brace behind its first character.** -/
theorem exists_cons_of_mem_blocks {text b : Text} (h : b ∈ blocks text) :
    ∃ c r, b = c :: r ∧ '\x7d' ∉ r :=
  exists_cons_of_mem_blocksFrom h trivial

namespace Definition

/-! ## What is read is proper -/

variable {text b : Text}

/-- A head that opens with `<` has no closing brace. -/
theorem brace_not_mem_head (hb : b ∈ blocks text)
    (hhead : (Text.plain (head b)).head? = some '<') : '\x7d' ∉ head b := by
  obtain ⟨c, r, rfl, hr⟩ := exists_cons_of_mem_blocks hb
  -- a brace in front would be in front of the plain form, where `<` is
  have hne : c ≠ '\x7d' := by
    rintro rfl
    have hopen : head ('\x7d' :: r) = '\x7d' :: (r.takeWhile (· != '>') ++ ['>']) := rfl
    rw [hopen, Text.head?_plain_cons Text.isBlank_brace] at hhead
    exact absurd (Option.some.inj hhead) (by decide)
  have hclose : '\x7d' ≠ '>' := by decide
  rw [head, List.mem_append, List.mem_singleton, not_or]
  refine ⟨fun hm => ?_, hclose⟩
  rcases List.mem_cons.1 ((List.takeWhile_prefix _).subset hm) with heq | hm
  · exact hne heq.symm
  · exact hr hm

/-- The rest of a block has no closing brace. -/
theorem brace_not_mem_rest (hb : b ∈ blocks text) : '\x7d' ∉ rest b := by
  obtain ⟨c, r, rfl, hr⟩ := exists_cons_of_mem_blocks hb
  have hsuffix : rest (c :: r) <:+ r := by
    rw [rest, List.dropWhile_cons]
    split
    · exact (List.tail_suffix _).trans (List.dropWhile_suffix _)
    · exact List.suffix_refl r
  exact fun hm => hr (hsuffix.subset hm)

/-- **The name of a block that is not malformed is proper.** -/
theorem properName_read (hb : b ∈ blocks text) (hwell : ¬ Malformed b) :
    ProperName (read b).name := by
  simp only [Malformed, not_or, not_not] at hwell
  obtain ⟨-, hsemi, hopens, hlong⟩ := hwell
  have hplain : Text.plain (head b)
      = Text.trimLeft (Text.collapse (b.takeWhile (· != '>'))) ++ ['>'] :=
    Text.plain_concat Text.isBlank_close _
  refine ⟨hopens, ?_, by simpa [read] using hlong, ?_, ?_, ?_, Text.singleSpaced_plain _⟩
  · show (Text.plain (head b)).getLast? = _
    rw [hplain, List.getLast?_concat]
  · show '>' ∉ (Text.plain (head b)).dropLast
    rw [hplain, List.dropLast_concat]
    intro hm
    have hmem : '>' ∈ b.takeWhile (· != '>') :=
      (Text.mem_collapse Text.isBlank_close _).1 ((List.dropWhile_suffix _).subset hm)
    simpa using List.mem_takeWhile_imp hmem
  · exact mt (Text.mem_plain Text.isBlank_semicolon _).1 hsemi
  · exact mt (Text.mem_plain Text.isBlank_brace _).1 (brace_not_mem_head hb hopens)

/-- A body is a piece in its plain form. -/
theorem exists_piece_of_mem_bodiesOf {s body : Text} (h : body ∈ bodiesOf s) :
    ∃ p ∈ Text.pieces ';' s, Text.plain p = body := by
  have hmem : body ∈ (Text.pieces ';' s).map Text.plain := by
    unfold bodiesOf withoutBlankLast at h
    split at h
    · exact (List.dropLast_prefix _).subset h
    · exact h
  exact List.mem_map.1 hmem

/-- **A definition that was read is made of its tokens**: a body is its
words with single spaces between them. -/
theorem ofTokens_tokens_read (b : Text) : ofTokens (read b).tokens = read b := by
  have hbody : ∀ body ∈ (read b).bodies, Text.joinWith [' '] (Text.words body) = body := by
    intro body hbody
    obtain ⟨p, -, rfl⟩ := exists_piece_of_mem_bodiesOf hbody
    rw [Text.words_plain, Text.plain_eq_joinWith]
  have hbodies : ((read b).bodies.map Text.words).map (Text.joinWith [' '])
      = (read b).bodies := by
    rw [List.map_map]
    exact (List.map_congr_left hbody).trans (List.map_id _)
  show (⟨(read b).name, ((read b).bodies.map Text.words).map (Text.joinWith [' '])⟩
    : Definition) = read b
  rw [hbodies]

/-- **The words of the bodies of a block are proper tokens.** -/
theorem properToken_of_mem_words (hb : b ∈ blocks text) {body t : Text}
    (hbody : body ∈ (read b).bodies) (ht : t ∈ Text.words body) : ProperToken t := by
  obtain ⟨p, hp, rfl⟩ := exists_piece_of_mem_bodiesOf hbody
  rw [Text.words_plain] at ht
  refine ⟨Text.isWord_of_mem_words ht, fun hm => ?_, fun hm => ?_⟩
  · exact Text.not_mem_of_mem_pieces hp (Text.mem_of_mem_words ht hm)
  · exact brace_not_mem_rest hb (Text.mem_of_mem_pieces hp (Text.mem_of_mem_words ht hm))

end Definition

/-! ## The written form as a layout -/

/-- Tokens with single spaces between them are joined. -/
theorem spaced_eq_joinWith (ts : List Text) : spaced ts = Text.joinWith [' '] ts := by
  induction ts with
  | nil => rfl
  | cons t ts ih =>
    cases ts with
    | nil => simp [spaced, Text.joinWith]
    | cons u ts =>
      rw [Text.joinWith_cons [' '] t (List.cons_ne_nil u ts), ← ih]
      simp [spaced]

/-- Bodies are written as a layout of them. -/
theorem laysBodies_writtenBody {tss : List (List Text)} (h : ∀ ts ∈ tss, ∀ t ∈ ts, Text.IsWord t) :
    LaysBodies tss (tss.flatMap writtenBody) := by
  induction tss with
  | nil => exact .nil Text.allBlank_nil
  | cons ts tss ih =>
    rw [List.forall_mem_cons] at h
    have hspace : Text.AllBlank [' '] := by decide
    have hspread : Text.Spreads ts ([' '] ++ Text.joinWith [' '] ts ++ [' ']) :=
      Text.spreads_joinWith h.1 hspace hspace hspace (List.cons_ne_nil _ _)
    have hbody : (ts :: tss).flatMap writtenBody
        = ([' '] ++ Text.joinWith [' '] ts ++ [' ']) ++ ';' :: tss.flatMap writtenBody := by
      simp [writtenBody, spaced_eq_joinWith]
    rw [hbody]
    exact .cons hspread (ih h.2)

/-- **The written form is a layout** of what is written. -/
theorem laysOut_written {es : List (Text × List (List Text))}
    (h : ∀ e ∈ es, ∀ ts ∈ e.2, ∀ t ∈ ts, Text.IsWord t) : LaysOut es (written es) := by
  induction es with
  | nil => exact .nil List.not_mem_nil
  | cons e es ih =>
    rw [List.forall_mem_cons] at h
    have hblock : LaysBlock e (writtenDefinition e.1 e.2) :=
      ⟨[], _, Text.allBlank_nil, laysBodies_writtenBody h.1, rfl⟩
    have hwritten : written (e :: es)
        = [] ++ '\x7b' :: writtenDefinition e.1 e.2 ++ '\x7d' :: written es := by
      simp [written, writtenBlock]
    rw [hwritten]
    exact .cons List.not_mem_nil hblock (ih h.2)

namespace Grammar

open Definition

/-! ## What a text makes is proper -/

variable {text : Text} {g : Grammar}

/-- **A text that is accepted has no malformed block**, and its grammar is
that of the definitions it keeps. -/
theorem ofText_result_ok (h : (ofText text).result = .ok g) :
    (∀ b ∈ blocks text, ¬ Malformed b) ∧ g = ofDefinitions (kept ((blocks text).map read))
      ∧ (kept ((blocks text).map read)).flatMap Definition.productions ≠ [] := by
  by_cases hwell : ∀ b ∈ blocks text, ¬ Malformed b
  · rw [ofText_of_read (Definition.ofText_eq_ok hwell), ofEntries_definitions] at h
    by_cases hps : (kept ((blocks text).map read)).flatMap Definition.productions = []
    · rw [if_pos hps] at h
      cases h
    · rw [if_neg hps] at h
      exact ⟨hwell, (Except.ok.inj h).symm, hps⟩
  · simp only [not_forall, not_not] at hwell
    obtain ⟨b, hb, hbad⟩ := hwell
    obtain ⟨c, hc⟩ := exists_first_malformed hb hbad
    obtain ⟨f, -, -, hf⟩ := Definition.ofText_eq_error hc
    rw [ofText, hf] at h
    cases h

/-- What is kept of the definitions of a text was read from its blocks. -/
theorem exists_block_of_mem_kept {d : Definition} (h : d ∈ kept ((blocks text).map read)) :
    ∃ b ∈ blocks text, read b = d :=
  List.mem_map.1 (mem_of_lastOf (mem_kept.1 h)).1

/-- Definitions without bodies make no production. -/
theorem flatMap_productions_filter (ds : List Definition) :
    (ds.filter (·.bodies ≠ [])).flatMap Definition.productions
      = ds.flatMap Definition.productions := by
  induction ds with
  | nil => rfl
  | cons d ds ih =>
    by_cases h : d.bodies = []
    · rw [List.filter_cons_of_neg (by simpa using h), ih, List.flatMap_cons]
      simp [Definition.productions, Production.ofBodies, h]
    · rw [List.filter_cons_of_pos (by simpa using h), List.flatMap_cons, List.flatMap_cons, ih]

/-- **The bodies of an accepted text by name are proper.** -/
theorem proper_tokenLists (h : (ofText text).result = .ok g) : Proper g.tokenLists.toList := by
  obtain ⟨hwell, rfl, -⟩ := ofText_result_ok h
  have hnodup := nodup_kept ((blocks text).map read)
  have hread : ∀ e ∈ (ofDefinitions (kept ((blocks text).map read))).tokenLists.toList,
      ∃ b ∈ blocks text, (read b).bodies ≠ [] ∧ (read b).tokens = e := by
    intro e he
    rw [toList_tokenLists_ofDefinitions hnodup] at he
    obtain ⟨d, hd, rfl⟩ := List.mem_map.1 he
    rw [List.mem_filter] at hd
    obtain ⟨b, hb, rfl⟩ := exists_block_of_mem_kept hd.1
    exact ⟨b, hb, by simpa using hd.2, rfl⟩
  refine ⟨?_, ?_, ?_, ?_⟩
  · intro e he
    obtain ⟨b, hb, -, rfl⟩ := hread e he
    exact properName_read hb (hwell b hb)
  · intro e he ts hts t ht
    obtain ⟨b, hb, -, rfl⟩ := hread e he
    obtain ⟨body, hbody, rfl⟩ := List.mem_map.1 hts
    exact properToken_of_mem_words hb hbody ht
  · intro e he
    obtain ⟨b, -, hbodies, rfl⟩ := hread e he
    exact mt List.map_eq_nil_iff.1 hbodies
  · rw [toList_tokenLists_ofDefinitions hnodup, List.map_map]
    exact hnodup.sublist (List.filter_sublist.map key)

/-- **The grammar of an accepted text is that of its bodies by name.** -/
theorem ofDefinitions_tokenLists (h : (ofText text).result = .ok g) :
    ofDefinitions (g.tokenLists.toList.map ofTokens) = g := by
  obtain ⟨-, rfl, -⟩ := ofText_result_ok h
  have hsame : ∀ d ∈ (kept ((blocks text).map read)).filter (·.bodies ≠ []),
      ofTokens d.tokens = d := by
    intro d hd
    obtain ⟨b, -, rfl⟩ := exists_block_of_mem_kept (List.mem_of_mem_filter hd)
    exact ofTokens_tokens_read b
  have hdefinitions : ((kept ((blocks text).map read)).filter (·.bodies ≠ [])).map
      (ofTokens ∘ Definition.tokens) = (kept ((blocks text).map read)).filter (·.bodies ≠ []) :=
    (List.map_congr_left hsame).trans (List.map_id _)
  rw [toList_tokenLists_ofDefinitions (nodup_kept _), List.map_map, hdefinitions, ofDefinitions,
    ofDefinitions, flatMap_productions_filter]

/-- **A grammar that was read is in canonical form, and writing it is a
fixpoint.** Its names and tokens are proper, names that are the same are
written in the same way, and the written form reads back as the same
grammar: with the same start and the same productions in the same order,
and so with the same bodies by name and the same alternatives. -/
theorem ofText_written_of_ofText (accepted : (ofText text).result = .ok g) :
    (∀ p ∈ g.productions, ProperName p.name ∧ ∀ x ∈ p.body, ProperToken x.token)
    ∧ (∀ p ∈ g.productions, ∀ q ∈ g.productions,
        Text.fold p.name = Text.fold q.name → p.name = q.name)
    ∧ (ofText g.written).result = .ok g := by
  have proper := proper_tokenLists accepted
  have hmade := ofDefinitions_tokenLists accepted
  have hps : g.productions
      = g.tokenLists.toList.flatMap fun e => e.2.map fun ts => ⟨e.1, ts.map Symbol.ofToken⟩ := by
    conv_lhs => rw [← hmade]
    exact proper.flatMap_productions
  -- every production is a body of an entry that is listed
  have hentry : ∀ p ∈ g.productions, ∃ e ∈ g.tokenLists.toList, ∃ ts ∈ e.2,
      p = ⟨e.1, ts.map Symbol.ofToken⟩ := by
    intro p hp
    rw [hps, List.mem_flatMap] at hp
    obtain ⟨e, he, hp⟩ := hp
    obtain ⟨ts, hts, rfl⟩ := List.mem_map.1 hp
    exact ⟨e, he, ts, hts, rfl⟩
  refine ⟨?_, ?_, ?_⟩
  · intro p hp
    obtain ⟨e, he, ts, hts, rfl⟩ := hentry p hp
    refine ⟨proper.names e he, fun x hx => ?_⟩
    obtain ⟨t, ht, rfl⟩ := List.mem_map.1 hx
    rw [Symbol.token_ofToken]
    exact proper.tokens e he ts hts t ht
  · intro p hp q hq hfold
    obtain ⟨e, he, ts, -, rfl⟩ := hentry p hp
    obtain ⟨e', he', ts', -, rfl⟩ := hentry q hq
    have hsame : e = e' := List.inj_on_of_nodup_map proper.distinct he he' hfold
    rw [hsame]
  · have hne : g.tokenLists.toList ≠ [] := by
      intro hnil
      obtain ⟨-, rfl, hproductions⟩ := ofText_result_ok accepted
      exact hproductions (hps.trans (by rw [hnil]; rfl))
    have hlaid : LaysOut g.tokenLists.toList g.written :=
      laysOut_written fun e he ts hts t ht => (proper.tokens e he ts hts t ht).isWord
    rw [proper.ofText_of_laysOut hne hlaid, hmade]

/-- Of a redefined name, an emptied one and odd blanks the written form
keeps what counts. -/
theorem ofText_written_of_ofText_of_untidy :
    ∃ g, (ofText "\x7b<A> x;\x7d\x7b<b\n\tc>\x7by  z;;\x7d\x7b<a> \x7d".toList).result = .ok g
      ∧ (ofText g.written).result = .ok g
      ∧ g.written = "\x7b<b c> \x7by z ;  ;\x7d".toList := by
  have accepted : (ofText "\x7b<A> x;\x7d\x7b<b\n\tc>\x7by  z;;\x7d\x7b<a> \x7d".toList).result
      = .ok (ofDefinitions [⟨"<b c>".toList, ["\x7by z".toList, []]⟩]) := by rfl
  exact ⟨_, accepted, (ofText_written_of_ofText accepted).2.2, by rfl⟩

end Grammar

end SentenceForge

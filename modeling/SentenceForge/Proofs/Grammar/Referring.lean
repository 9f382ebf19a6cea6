import SentenceForge.Proofs.Grammar.Built
import SentenceForge.Proofs.Grammar.Definition
import SentenceForge.Proofs.Text.CaseFolding

/-!
# Names that can be referred to

A name and a reference are cut out of a text in two ways. A name goes from the
opening of its block up to the first `>`, and single spaces may be left in it; a
reference is a word. Whether a token refers is seen at its two ends, so a name is
a reference if it is taken as one token – but only a name without a space ever is.

Such a name is found wherever it stands between blanks, and leads to its definition.
A name with a space is accepted all the same, and then nothing leads to it:
written in a body it is several words, none of which is the name, and no word that
has its case folding can be written in its place, for that has the space too
(`resolves_of_ofBlock`).
-/

namespace SentenceForge

namespace Text

/-- **A text stands in another** as an item of its own: between blanks, or at an
end. -/
def StandsIn (t s : Text) : Prop :=
  ∃ u v, s = u ++ t ++ v ∧ (∀ c ∈ u.getLast?, isBlank c = true) ∧ SetsOff v

/-- A word that stands in a text is one of its words. -/
theorem mem_words_of_standsIn {t s : Text} (ht : IsWord t) (h : StandsIn t s) : t ∈ words s := by
  obtain ⟨u, v, rfl, hu, hv⟩ := h
  rw [List.append_assoc, words_append_of_getLast? hu, words_word_append ht hv]
  exact List.mem_append_right _ List.mem_cons_self

/-- **A text is its only word exactly if it is a word.** -/
theorem words_eq_singleton_iff {t : Text} : words t = [t] ↔ IsWord t := by
  constructor
  · intro h
    exact isWord_of_mem_words (h ▸ List.mem_singleton_self t)
  · intro h
    simpa using words_word_append h setsOff_nil

/-- A word has no space. -/
theorem IsWord.space_not_mem {t : Text} (h : IsWord t) : ' ' ∉ t := fun hm => by
  have hspace := h.2 ' ' hm
  rw [isBlank_space] at hspace
  cases hspace

/-- A text with single spaces is a word if it has none. -/
theorem SingleSpaced.isWord {t : Text} (h : SingleSpaced t) (hne : t ≠ []) (hspace : ' ' ∉ t) :
    IsWord t := by
  refine ⟨hne, fun c hc => Bool.eq_false_iff.2 fun hblank => hspace ?_⟩
  rwa [← h.eq_space c hc hblank]

end Text

namespace Definition

variable {block text : Text} {d : Definition} {ds : List Definition}

/-! ## The name as a token -/

/-- **A name that is accepted is a reference**, taken as one token. -/
theorem ofToken_name (h : ofBlock block = .ok d) : Symbol.ofToken d.name = .reference d.name := by
  have hname := isName_of_ofBlock h
  rw [isName, Bool.and_eq_true] at hname
  rw [Symbol.ofToken, if_pos hname.2]

/-- **A name is one token exactly if it has no space.** -/
theorem isWord_name_iff (h : ofBlock block = .ok d) : Text.IsWord d.name ↔ ' ' ∉ d.name := by
  obtain ⟨-, rfl⟩ := ofBlock_eq_ok_iff.1 h
  have hlong := isName_of_ofBlock h
  rw [isName, Bool.and_eq_true, decide_eq_true_eq] at hlong
  have hne : (read block).name ≠ [] := by
    intro hnil
    rw [hnil] at hlong
    exact absurd hlong.1 (by decide)
  exact ⟨Text.IsWord.space_not_mem, (Text.singleSpaced_plain _).isWord hne⟩

/-- A name without a space is referred to wherever it stands in a body. -/
theorem mem_references_of_standsIn (h : ofBlock block = .ok d) (hspace : ' ' ∉ d.name)
    {body : Text} (hbody : Text.StandsIn d.name body) (name : Text) :
    d.name ∈ (Production.ofText name body).references := by
  have hword := Text.mem_words_of_standsIn ((isWord_name_iff h).2 hspace) hbody
  rw [Production.mem_references, ← ofToken_name h]
  exact List.mem_map_of_mem hword

/-! ## The name in a grammar -/

/-- **A text whose last definition of a name has bodies makes a grammar**, and the
alternatives of the name are those bodies. -/
theorem exists_ofText_alternatives (hread : ofText text = .ok ds)
    (hlast : lastOf ds d.key = some d) (hbodies : d.bodies ≠ []) :
    (Grammar.ofText text).result = .ok (Grammar.ofDefinitions (kept ds))
      ∧ (Grammar.ofDefinitions (kept ds)).alternatives d.name = d.productions := by
  have hps : (kept ds).flatMap Definition.productions ≠ [] := by
    obtain ⟨body, hbody⟩ := List.exists_mem_of_ne_nil _ hbodies
    exact List.ne_nil_of_mem
      (List.mem_flatMap.2 ⟨d, mem_kept.2 hlast, List.mem_map_of_mem hbody⟩)
  constructor
  · rw [Grammar.ofText_of_read hread, Grammar.ofEntries_definitions, if_neg hps]
  · rw [Grammar.alternatives_kept]
    show ((lastOf ds d.key).map Definition.productions).getD [] = _
    rw [hlast]
    rfl

/-- **No reference leads to a name with a space**, in whatever spelling. -/
theorem alternatives_ne_of_space_mem (hspace : ' ' ∈ d.name) (hbodies : d.bodies ≠ [])
    {p : Production} (hp : p ∈ (Grammar.ofDefinitions ds).productions) {r : Text}
    (hr : r ∈ p.references) : (Grammar.ofDefinitions ds).alternatives r ≠ d.productions := by
  intro heq
  -- an alternative of `r` would have the name, and `r` its case folding
  obtain ⟨body, hbody⟩ := List.exists_mem_of_ne_nil _ hbodies
  have hmem : Production.ofText d.name body ∈ (Grammar.ofDefinitions ds).alternatives r :=
    heq ▸ List.mem_map_of_mem hbody
  rw [Grammar.alternatives_eq_filter, List.mem_filter] at hmem
  have hfold : Text.fold d.name = Text.fold r := of_decide_eq_true hmem.2
  have hword : Text.IsWord r := (Grammar.isWord_of_mem_body hp ((p.mem_references r).1 hr)).1
  refine hword.space_not_mem ((Text.mem_fold_iff Text.isMark_space r).1 ?_)
  rw [← hfold]
  exact (Text.mem_fold_iff Text.isMark_space d.name).2 hspace

/-- **Which names can be referred to.** A name that is accepted is a reference, but
it is one token exactly if it has no space. In every text that is accepted and in
which it is defined last by this definition, with bodies, its alternatives are those
bodies. If it has no space, then every body in which it stands as an item refers to
it and is led to just these alternatives; if it has one, then no reference of the
grammar is. -/
theorem resolves_of_ofBlock (accepted : ofBlock block = .ok d) :
    Symbol.ofToken d.name = .reference d.name
    ∧ (Text.words d.name = [d.name] ↔ ' ' ∉ d.name)
    ∧ ∀ (text : Text) (ds : List Definition), ofText text = .ok ds → lastOf ds d.key = some d →
      d.bodies ≠ [] →
      ∃ g, (Grammar.ofText text).result = .ok g ∧ g.alternatives d.name = d.productions
        ∧ (' ' ∉ d.name → ∀ e ∈ ds, ∀ body ∈ e.bodies, Text.StandsIn d.name body →
          ∃ r ∈ (Production.ofText e.name body).references, g.alternatives r = d.productions)
        ∧ (' ' ∈ d.name → ∀ p ∈ g.productions, ∀ r ∈ p.references,
          g.alternatives r ≠ d.productions) := by
  refine ⟨ofToken_name accepted, Text.words_eq_singleton_iff.trans (isWord_name_iff accepted), ?_⟩
  intro text ds hread hlast hbodies
  obtain ⟨hbuilt, halternatives⟩ := exists_ofText_alternatives hread hlast hbodies
  refine ⟨_, hbuilt, halternatives, ?_, ?_⟩
  · intro hspace e _ body _ hbody
    exact ⟨d.name, mem_references_of_standsIn accepted hspace hbody e.name, halternatives⟩
  · intro hspace p hp r hr
    exact alternatives_ne_of_space_mem hspace hbodies hp hr

/-- Two names stand in a body. The one with a space is accepted and defined, and
nothing leads to it; the other is led to. -/
theorem resolves_of_ofBlock_of_two_words :
    let text := "\x7b<start> a <big noun> <verb> ;\x7d\x7b<big noun> cat ;\x7d".toList
      ++ "\x7b<verb> sat;;\x7d".toList
    let noun : Definition := ⟨"<big noun>".toList, ["cat".toList]⟩
    let verb : Definition := ⟨"<verb>".toList, ["sat".toList, []]⟩
    ofBlock "<big noun> cat ;".toList = .ok noun ∧ ofBlock "<verb> sat;;".toList = .ok verb
      ∧ ∃ g, (Grammar.ofText text).result = .ok g
        ∧ g.alternatives noun.name = noun.productions
        ∧ (∀ p ∈ g.productions, ∀ r ∈ p.references, g.alternatives r ≠ noun.productions)
        ∧ ∃ r ∈ (Production.ofText "<start>".toList "a <big noun> <verb>".toList).references,
          g.alternatives r = verb.productions := by
  intro text noun verb
  have hnoun : ofBlock "<big noun> cat ;".toList = .ok noun := by decide
  have hverb : ofBlock "<verb> sat;;".toList = .ok verb := by decide
  have hread : ofText text
      = .ok [⟨"<start>".toList, ["a <big noun> <verb>".toList]⟩, noun, verb] := by rfl
  obtain ⟨-, -, hresolves⟩ := resolves_of_ofBlock hnoun
  obtain ⟨g, hg, halternatives, -, hnone⟩ := hresolves _ _ hread (by decide) (by decide)
  obtain ⟨-, -, hresolves'⟩ := resolves_of_ofBlock hverb
  obtain ⟨g', hg', -, hsome, -⟩ := hresolves' _ _ hread (by decide) (by decide)
  have hstands : Text.StandsIn verb.name "a <big noun> <verb>".toList := by
    refine ⟨"a <big noun> ".toList, [], by rfl, ?_, Text.setsOff_nil⟩
    rintro c ⟨⟩
    exact Text.isBlank_space
  obtain rfl := Except.ok.inj (hg.symm.trans hg')
  exact ⟨hnoun, hverb, g, hg, halternatives, hnone (by decide),
    hsome (by decide) _ List.mem_cons_self _ List.mem_cons_self hstands⟩

end Definition

end SentenceForge

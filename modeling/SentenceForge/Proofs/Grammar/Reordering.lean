import SentenceForge.Proofs.Expansion.Locality
import SentenceForge.Sentence.Basic

/-!
# The order of definitions

Definitions of different names may be written in any order. What a name expands
to is said by its last definition, and which one is last depends on the order of
its own definitions only, so a reordering that keeps this one leaves every name
its alternatives. All that can be seen of the order is the order in which the
productions are listed and the redefinitions are noticed (`ofEntries_of_reordered`).

The start looks as if it depended on more, being the name of the first production
that is found to be one of `<start>`. It is that of the first alternative
(`startOf_eq`).
-/

namespace SentenceForge

/-- Lists that have the same elements of each key, in the same order, have the
same elements. -/
theorem perm_of_filter_eq {α κ : Type} [DecidableEq α] [DecidableEq κ] (key : α → κ)
    {xs ys : List α} (h : ∀ k, xs.filter (key · = k) = ys.filter (key · = k)) : xs.Perm ys := by
  refine List.perm_iff_count.2 fun x => ?_
  calc xs.count x = (xs.filter (key · = key x)).count x := (List.count_filter (by simp)).symm
    _ = (ys.filter (key · = key x)).count x := by rw [h]
    _ = ys.count x := List.count_filter (by simp)

/-- **Entries in another order**, in which the entries of each name come in the
order in which they came. -/
structure Reordered (entries entries' : List Entry) : Prop where
  /-- They are the same entries. -/
  perm : entries.Perm entries'
  /-- Those of a name are in the same order. -/
  order : ∀ k, entries.filter (Entry.isOf k) = entries'.filter (Entry.isOf k)

/-- **Entries are reordered if the order is kept of each name that they have**; no
other name has an entry in either order. -/
theorem Reordered.of_names {entries entries' : List Entry} (perm : entries.Perm entries')
    (order : ∀ n ∈ entries.filterMap List.head?, entries.filter (Entry.isOf (Text.fold n))
      = entries'.filter (Entry.isOf (Text.fold n))) : Reordered entries entries' := by
  refine ⟨perm, fun k => ?_⟩
  by_cases h : ∃ e ∈ entries, Entry.isOf k e = true
  · obtain ⟨e, he, hk⟩ := h
    cases e with
    | nil => cases hk
    | cons name bodies =>
      obtain rfl := of_decide_eq_true hk
      exact order name (List.mem_filterMap.2 ⟨_, he, rfl⟩)
  · rw [List.filter_eq_nil_iff.2 fun e he hk => h ⟨e, he, hk⟩,
      List.filter_eq_nil_iff.2 fun e he hk => h ⟨e, perm.mem_iff.2 he, hk⟩]

namespace Definition

/-- The definitions of a name that was seen before them. -/
def repeated : List Text → List Definition → List Definition
  | _, [] => []
  | seen, d :: ds => (if seen.contains d.key then [d] else []) ++ repeated (d.key :: seen) ds

/-- A notice is given of each of them. -/
theorem redefinitions_eq_map (seen : List Text) (ds : List Definition) :
    redefinitions seen ds = (repeated seen ds).map fun d => .redefined d.name := by
  induction ds generalizing seen with
  | nil => rfl
  | cons d ds ih =>
    rw [redefinitions, repeated, List.map_append, ih]
    by_cases h : d.key ∈ seen
    · rw [if_pos h, if_pos (List.contains_iff_mem.2 h)]
      rfl
    · rw [if_neg h, if_neg (mt List.contains_iff_mem.1 h)]
      rfl

/-- **Of a name every definition but the first is repeated**, and that one too if
the name was seen. -/
theorem filter_repeated (seen : List Text) (ds : List Definition) (k : Text) :
    (repeated seen ds).filter (·.key = k)
      = if k ∈ seen then ds.filter (·.key = k) else (ds.filter (·.key = k)).tail := by
  induction ds generalizing seen with
  | nil => rw [repeated, List.filter_nil, List.tail_nil, ite_self]
  | cons d ds ih =>
    rw [repeated, List.filter_append, ih]
    by_cases hk : d.key = k
    · -- from here on the name is seen
      subst hk
      rw [if_pos List.mem_cons_self, List.filter_cons_of_pos (by simp), List.tail_cons]
      by_cases hseen : d.key ∈ seen
      · rw [if_pos hseen, if_pos (List.contains_iff_mem.2 hseen),
          List.filter_cons_of_pos (by simp)]
        rfl
      · rw [if_neg hseen, if_neg (mt List.contains_iff_mem.1 hseen)]
        rfl
    · have hsingle : (if seen.contains d.key then [d] else []).filter (·.key = k) = [] := by
        split <;> simp [hk]
      have hmem : k ∈ d.key :: seen ↔ k ∈ seen := by simp [Ne.symm hk]
      rw [hsingle, List.nil_append, List.filter_cons_of_neg (by simpa using hk)]
      simp only [hmem]

variable {ds ds' : List Definition}

/-- **The same names are redefined**, in whatever order. -/
theorem redefinitions_perm (h : ∀ k, ds.filter (·.key = k) = ds'.filter (·.key = k)) :
    (redefinitions [] ds).Perm (redefinitions [] ds') := by
  rw [redefinitions_eq_map, redefinitions_eq_map]
  refine (perm_of_filter_eq key fun k => ?_).map _
  rw [filter_repeated, filter_repeated, h]

/-- **The same definitions are kept**, in whatever order. -/
theorem kept_perm (h : ∀ k, ds.filter (·.key = k) = ds'.filter (·.key = k)) :
    (kept ds).Perm (kept ds') := by
  refine (List.perm_ext_iff_of_nodup (nodup_kept ds).of_map (nodup_kept ds').of_map).2 fun d => ?_
  rw [mem_kept, mem_kept, lastOf, lastOf, h]

end Definition

namespace Grammar

open Definition

/-! ## Grammars that differ in the order of their productions -/

/-- **Grammars that are alike**: they differ at most in the order in which they
list their productions, and nothing that is made of one differs from what is made
of the other. -/
structure Alike (g g' : Grammar) : Prop where
  /-- They start from the same name, in the same spelling. -/
  start : g.start = g'.start
  /-- They have the same productions. -/
  productions : g.productions.Perm g'.productions
  /-- Every name has the same alternatives, in the same order. -/
  alternatives : ∀ n, g.alternatives n = g'.alternatives n
  /-- The same names are defined. -/
  defines : ∀ n, g.defines n = g'.defines n
  /-- Every name is expanded in the same way: the same notices, choices, result or
  error, and the same memory afterwards. -/
  expand : ∀ {σ : Type} (source : Source σ) (settings : Settings) (name : Text) (s : σ),
    g.expand source settings name s = g'.expand source settings name s
  /-- The same sentences are made, in the same way. -/
  sentence : ∀ {σ : Type} (source : Source σ) (settings : Settings) (s : σ),
    g.sentence source settings s = g'.sentence source settings s

/-- **Grammars with the same alternatives are alike**, if they start from the same
name and have the same productions. -/
theorem alike_of_alternatives {g g' : Grammar} (start : g.start = g'.start)
    (productions : g.productions.Perm g'.productions)
    (alternatives : ∀ n, g.alternatives n = g'.alternatives n) : g.Alike g' := by
  have hexpand {σ : Type} (source : Source σ) (settings : Settings) (name : Text) (s : σ) :
      g.expand source settings name s = g'.expand source settings name s := by
    unfold Grammar.expand
    rw [run_congr_of_reaches (fun n _ => alternatives n) source _ _ 0 (.self rfl) s]
  refine ⟨start, productions, alternatives, fun n => ?_, hexpand, fun source settings s => ?_⟩
  · rw [Bool.eq_iff_iff, defines_iff, defines_iff, alternatives]
  · rw [sentence, sentence, start, hexpand]

/-- Definitions of which the same ones of each name are there make grammars that
are alike. -/
theorem alike_ofDefinitions_kept {ds ds' : List Definition}
    (h : ∀ k, ds.filter (·.key = k) = ds'.filter (·.key = k)) :
    (ofDefinitions (kept ds)).Alike (ofDefinitions (kept ds')) := by
  have halternatives (n : Text) : (ofDefinitions (kept ds)).alternatives n
      = (ofDefinitions (kept ds')).alternatives n := by
    rw [alternatives_kept, alternatives_kept, lastOf, lastOf, h]
  refine alike_of_alternatives ?_ ((kept_perm h).flatMap_right _) halternatives
  show startOf (ofDefinitions (kept ds)).productions
    = startOf (ofDefinitions (kept ds')).productions
  rw [startOf_eq, startOf_eq, halternatives]

/-! ## Entries in another order -/

/-- **The order of definitions does not matter**, as long as those of one name
keep theirs. Entries that are reordered so make grammars that are alike, or none
at all, for want of a start; and the notices are the same, up to their order. -/
theorem ofEntries_of_reordered {entries entries' : List Entry} (nonempty : ∀ e ∈ entries, e ≠ [])
    (reordered : Reordered entries entries') :
    (ofEntries entries).notices.Perm (ofEntries entries').notices
    ∧ ((∃ g g', (ofEntries entries).result = .ok g ∧ (ofEntries entries').result = .ok g'
          ∧ g.Alike g')
      ∨ ((ofEntries entries).result = .error (.grammar (.noStart startName))
        ∧ (ofEntries entries').result = .error (.grammar (.noStart startName)))) := by
  obtain ⟨perm, order⟩ := reordered
  obtain ⟨ds, rfl⟩ := exists_map_entry nonempty
  obtain ⟨ds', rfl⟩ := exists_map_entry fun e he => nonempty e (perm.mem_iff.2 he)
  have hfilter (k : Text) : ds.filter (·.key = k) = ds'.filter (·.key = k) := by
    refine List.map_injective_iff.2 entry_injective ?_
    rw [← filter_isOf_map_entry, ← filter_isOf_map_entry, order]
  have hkept := kept_perm hfilter
  have hproductions : ((kept ds).flatMap Definition.productions).Perm
      ((kept ds').flatMap Definition.productions) := hkept.flatMap_right _
  rw [ofEntries_definitions, ofEntries_definitions]
  by_cases hnone : (kept ds).flatMap Definition.productions = []
  · rw [if_pos hnone, if_pos (hnone ▸ hproductions).nil_eq.symm]
    exact ⟨redefinitions_perm hfilter, .inr ⟨rfl, rfl⟩⟩
  · rw [if_neg hnone, if_neg fun h => hnone (h ▸ hproductions).eq_nil, hkept.length_eq,
      hproductions.length_eq]
    exact ⟨(redefinitions_perm hfilter).append_right _,
      .inl ⟨_, _, rfl, rfl, alike_ofDefinitions_kept hfilter⟩⟩

/-- Both names are redefined in another casing, and a name without bodies comes
last or first: the productions and the notices change places, and a sentence goes
too deep at the same name. -/
theorem ofEntries_of_reordered_of_redefined :
    let entries := [["<mid>".toList, "old".toList], ["<start>".toList, "x".toList],
      ["<MID>".toList, "b".toList, "c <start>".toList], ["<Start>".toList, "a <mid> <none>".toList],
      ["<none>".toList]]
    let entries' := [["<none>".toList], ["<start>".toList, "x".toList],
      ["<Start>".toList, "a <mid> <none>".toList], ["<mid>".toList, "old".toList],
      ["<MID>".toList, "b".toList, "c <start>".toList]]
    (∀ e ∈ entries, e ≠ []) ∧ Reordered entries entries'
      ∧ (ofEntries entries).notices
        = [.redefined "<MID>".toList, .redefined "<Start>".toList, .built 3 3]
      ∧ (ofEntries entries').notices
        = [.redefined "<Start>".toList, .redefined "<MID>".toList, .built 3 3]
      ∧ (ofEntries entries).notices.Perm (ofEntries entries').notices
      ∧ ∃ g g', (ofEntries entries).result = .ok g ∧ (ofEntries entries').result = .ok g'
        ∧ g.Alike g' ∧ g.start = "<Start>".toList
        ∧ (g'.sentence Random.Chooser.source { maxDepth := some 3 } (.ofScript [0, 3])).result
          = .error (.grammar (.tooDeep "<mid>".toList 3)) := by
  intro entries entries'
  have nonempty : ∀ e ∈ entries, e ≠ [] := by decide
  have reordered : Reordered entries entries' := .of_names (by decide) (by decide)
  obtain ⟨hnotices, ⟨g, g', built, built', alike⟩ | ⟨failed, -⟩⟩ :=
    ofEntries_of_reordered nonempty reordered
  · refine ⟨nonempty, reordered, by rfl, by rfl, hnotices, g, g', built, built', alike, ?_, ?_⟩
    · obtain rfl := Except.ok.inj built
      rfl
    · obtain rfl := Except.ok.inj built'
      rfl
  · cases failed

end Grammar

end SentenceForge

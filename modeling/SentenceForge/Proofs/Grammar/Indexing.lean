import Mathlib.Data.List.Perm.Basic
import SentenceForge.Proofs.Grammar.Canonical
import SentenceForge.Proofs.Text.CaseFolding

/-!
# The index against a plain scan

A grammar looks names up in an index, and the index is filled once, in a pass
over the productions that puts each behind those of its name. It is what a scan
of the productions would find at every look-up, in whatever order they come and
whether or not those of a name are neighbours (`Indexes`). Nothing is lost in it
and nothing is there twice: name by name, the alternatives are the productions
again, and since a folded name is its own folding they may be asked for by the
keys of the index themselves.

The bodies by name are listed by the name as written, not by the folded one,
so they need not agree with the index. In a grammar that is built they do
(`ListsAlternatives`). A name that is defined again is written in one way
afterwards, with all its productions in a row, so that a written name that is
listed is all there is of the name it folds to.
-/

namespace SentenceForge

/-- **The elements of a list, key by key, are its elements**, in whatever order the
keys come. -/
theorem flatMap_filter_perm {α κ : Type} [DecidableEq κ] (key : α → κ) {keys : List κ}
    (distinct : keys.Nodup) {xs : List α} (covered : ∀ x ∈ xs, key x ∈ keys) :
    (keys.flatMap fun k => xs.filter (key · = k)).Perm xs := by
  induction keys generalizing xs with
  | nil =>
    have hnil : xs = [] := List.eq_nil_iff_forall_not_mem.2 fun x hx =>
      List.not_mem_nil (covered x hx)
    rw [hnil, List.flatMap_nil]
  | cons k keys ih =>
    rw [List.nodup_cons] at distinct
    -- what has another key than `k` has one of the rest
    have hrest : ∀ x ∈ xs.filter (fun x => !decide (key x = k)), key x ∈ keys := by
      intro x hx
      rw [List.mem_filter, Bool.not_eq_true', decide_eq_false_iff_not] at hx
      exact (List.mem_cons.1 (covered x hx.1)).resolve_left hx.2
    have hsame : (keys.flatMap fun j => xs.filter (key · = j))
        = keys.flatMap fun j => (xs.filter fun x => !decide (key x = k)).filter (key · = j) := by
      refine List.flatMap_congr fun j hj => ?_
      have hne : j ≠ k := fun e => distinct.1 (e ▸ hj)
      rw [List.filter_filter]
      refine List.filter_congr fun x _ => ?_
      by_cases h : key x = j <;> simp [h, hne]
    rw [List.flatMap_cons, hsame]
    exact ((ih distinct.2 hrest).append_left _).trans (List.filter_append_perm _ xs)

/-- The production of a name with a body given as tokens. -/
def Production.ofTokens (name : Text) (tokens : List Text) : Production :=
  ⟨name, tokens.map Symbol.ofToken⟩

namespace Grammar

open Definition

/-! ## The index -/

/-- **A grammar indexes productions**: it finds what a scan of them finds. -/
structure Indexes (g : Grammar) (ps : List Production) : Prop where
  /-- The productions are those given, in their order. -/
  productions : g.productions = ps
  /-- The alternatives of a name are the productions with its case folding, in
  their order. -/
  alternatives : ∀ name, g.alternatives name = ps.filter (Text.fold ·.name = Text.fold name)
  /-- The names that are defined are those with such a production. -/
  defines : ∀ name, g.defines name = true
    ↔ ps.filter (Text.fold ·.name = Text.fold name) ≠ []
  /-- The alternatives of the folded names, each name once, are the productions. -/
  complete : ((ps.map fun p => Text.fold p.name).eraseDups.flatMap g.alternatives).Perm ps

/-- **Every grammar indexes its productions**, whichever they are. -/
theorem indexes_ofProductions (start : Text) (ps : List Production) :
    (ofProductions start ps).Indexes ps where
  productions := rfl
  alternatives := alternatives_eq_filter _
  defines name := by
    rw [defines_iff, alternatives_eq_filter]
    rfl
  complete := by
    have hkeys : (ofProductions start ps).index.keys
        = (ps.map fun p => Text.fold p.name).eraseDups := Table.keys_group _ id ps
    have hfolded : ∀ k ∈ (ps.map fun p => Text.fold p.name).eraseDups,
        (ofProductions start ps).alternatives k = ps.filter (Text.fold ·.name = k) := by
      intro k hk
      obtain ⟨p, -, rfl⟩ := List.mem_map.1 (List.mem_eraseDups.1 hk)
      rw [alternatives_eq_filter, Text.fold_fold]
      rfl
    rw [List.flatMap_congr hfolded]
    exact flatMap_filter_perm (fun p : Production => Text.fold p.name)
      (hkeys ▸ Table.nodup_keys _) fun p hp => List.mem_eraseDups.2 (List.mem_map_of_mem hp)

/-! ## The bodies by name -/

/-- **The bodies by name list the alternatives**: what is listed under a name as
written is what is found under the name it folds to. -/
structure ListsAlternatives (g : Grammar) : Prop where
  /-- The bodies one after the other, each with its name, are the productions in
  their order. -/
  productions : g.productions
    = g.tokenLists.toList.flatMap fun e => e.2.map (Production.ofTokens e.1)
  /-- No two of the names have the same case folding. -/
  distinct : (g.tokenLists.keys.map Text.fold).Nodup
  /-- The bodies of a name are those of all its alternatives, which are written with
  that name. -/
  alternatives : ∀ name bodies, g.tokenLists.get? name = some bodies →
    g.alternatives name = bodies.map (Production.ofTokens name)

/-- The productions of a definition are those of its tokens. -/
theorem productions_eq_map_tokens (d : Definition) :
    d.productions = d.tokens.2.map (Production.ofTokens d.tokens.1) := by
  rw [Definition.tokens, List.map_map]
  rfl

/-- **In a grammar that is built the bodies by name list the alternatives.** -/
theorem listsAlternatives_of_ofEntries {entries : List Entry} {g : Grammar}
    (built : (ofEntries entries).result = .ok g) : g.ListsAlternatives := by
  obtain ⟨ds, rfl, rfl, -⟩ := exists_kept_of_ofEntries built
  have hnodup := nodup_kept ds
  have hlisted := toList_tokenLists_ofDefinitions hnodup
  refine ⟨?_, ?_, fun name bodies hget => ?_⟩
  · rw [hlisted, List.flatMap_map]
    show (kept ds).flatMap Definition.productions = _
    rw [← flatMap_productions_filter]
    exact List.flatMap_congr fun d _ => productions_eq_map_tokens d
  · rw [← Table.map_fst_toList, hlisted, List.map_map, List.map_map]
    exact hnodup.sublist (List.filter_sublist.map key)
  · rw [← Table.mem_toList, hlisted] at hget
    obtain ⟨d, hd, htokens⟩ := List.mem_map.1 hget
    obtain ⟨rfl, rfl⟩ := Prod.mk.inj htokens
    rw [alternatives_ofDefinitions]
    show ((kept ds).filter (·.key = d.key)).flatMap _ = _
    rw [filter_of_nodup hnodup (List.mem_of_mem_filter hd), List.flatMap_singleton]
    exact productions_eq_map_tokens d

/-- **The index loses nothing**, whatever productions it is made of, and in a grammar
that is built the bodies by name list what it finds. -/
theorem index_loses_nothing :
    (∀ (start : Text) (ps : List Production), (ofProductions start ps).Indexes ps)
      ∧ ∀ (entries : List Entry) (g : Grammar),
        (ofEntries entries).result = .ok g → g.ListsAlternatives :=
  ⟨indexes_ofProductions, fun _ _ => listsAlternatives_of_ofEntries⟩

/-- Productions of two names by turns, the first in two spellings: its alternatives
are looked up together and its bodies listed apart. The same bodies as definitions,
of which the last replaces the first in its place, are listed as they are looked
up. -/
theorem index_loses_nothing_of_interleaved :
    let a := "<a>".toList
    let ps := [Production.ofText a "x <B>".toList, .ofText "<b>".toList "y".toList,
      .ofText "<A>".toList "z".toList]
    let entries := [[a, "x <B>".toList], ["<b>".toList, "y".toList], ["<A>".toList, "z".toList, []]]
    let views := [("<A>".toList, [["z".toList], []]), ("<b>".toList, [["y".toList]])]
    (ofProductions startName ps).Indexes ps
      ∧ (ofProductions startName ps).alternatives a = [.ofText a "x <B>".toList,
        .ofText "<A>".toList "z".toList]
      ∧ ¬ (ofProductions startName ps).ListsAlternatives
      ∧ ∃ g, (ofEntries entries).result = .ok g
        ∧ g.tokenLists.toList = views ∧ g.ListsAlternatives := by
  intro a ps entries views
  have built : (ofEntries entries).result = .ok (ofDefinitions
      [⟨"<A>".toList, ["z".toList, []]⟩, ⟨"<b>".toList, ["y".toList]⟩]) := by rfl
  refine ⟨index_loses_nothing.1 startName ps, by rfl, fun h => ?_,
    _, built, by rfl, index_loses_nothing.2 entries _ built⟩
  have hdistinct := h.distinct
  revert hdistinct
  decide

end Grammar

end SentenceForge

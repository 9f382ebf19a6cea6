import SentenceForge.Proofs.Expansion.Run
import SentenceForge.Proofs.Grammar.Built
import SentenceForge.Proofs.Grammar.Reachability

/-!
# Only reachable definitions matter

An expansion asks its grammar for the alternatives of the names it reaches
and for nothing else, and it reaches no name but by references. So two
grammars that agree on what is reached from a name expand it alike,
whatever else they hold (`run_congr_of_reaches`).

Which alternatives a name has is decided by the entries of that name alone,
in their order. What happens to other entries – that they are deleted,
inserted, changed, or moved by being deleted in one place and inserted in
another – leaves them as they are, and so it leaves the expansion as it is
if the name of none of them is reached.
-/

namespace SentenceForge

/-! ## Edits -/

/-- **Entries edited outside some names**: entries of other names may be
deleted, inserted and changed, and the rest stays as it is. -/
inductive EditedOutside (names : Text → Prop) : List Entry → List Entry → Prop where
  /-- Nothing is left to edit. -/
  | done : EditedOutside names [] []
  /-- An entry stays as it is. -/
  | kept (e : Entry) {es es' : List Entry} (rest : EditedOutside names es es') :
      EditedOutside names (e :: es) (e :: es')
  /-- An entry of another name is deleted. -/
  | deleted (name : Text) (bodies : List Text) (outside : ¬ names name) {es es' : List Entry}
      (rest : EditedOutside names es es') : EditedOutside names ((name :: bodies) :: es) es'
  /-- An entry of another name is inserted. -/
  | inserted (name : Text) (bodies : List Text) (outside : ¬ names name) {es es' : List Entry}
      (rest : EditedOutside names es es') : EditedOutside names es ((name :: bodies) :: es')
  /-- An entry of another name is changed to one of another name. -/
  | changed (name name' : Text) (bodies bodies' : List Text) (outside : ¬ names name)
      (outside' : ¬ names name') {es es' : List Entry} (rest : EditedOutside names es es') :
      EditedOutside names ((name :: bodies) :: es) ((name' :: bodies') :: es')

/-- **Edits outside some names leave the entries of these**, in their
order. -/
theorem EditedOutside.filter_eq {names : Text → Prop} {es es' : List Entry}
    (h : EditedOutside names es es') {k : Text} (hk : ∀ n, Text.fold n = k → names n) :
    es.filter (Entry.isOf k) = es'.filter (Entry.isOf k) := by
  have hother : ∀ name bodies, ¬ names name → Entry.isOf k (name :: bodies) = false := by
    intro name bodies outside
    exact decide_eq_false fun same => outside (hk name same)
  induction h with
  | done => rfl
  | kept e _ ih => rw [List.filter_cons, List.filter_cons, ih]
  | deleted name bodies outside _ ih =>
    rw [List.filter_cons, hother name bodies outside]
    exact ih
  | inserted name bodies outside _ ih =>
    rw [ih, List.filter_cons, hother name bodies outside]
    rfl
  | changed name name' bodies bodies' outside outside' _ ih =>
    rw [List.filter_cons, List.filter_cons, hother name bodies outside,
      hother name' bodies' outside']
    exact ih

/-! ## Expansions of grammars that agree -/

/-- A body depends on the runs of its references only. -/
theorem Run.ofBody_congr {σ : Type} {expand expand' : Text → σ → Run σ} {body : List Symbol}
    (h : ∀ r, Symbol.reference r ∈ body → ∀ s, expand r s = expand' r s) (s : σ) :
    ofBody expand body s = ofBody expand' body s := by
  induction body generalizing s with
  | nil => rfl
  | cons x body ih =>
    have hrest := ih fun r hr => h r (List.mem_cons_of_mem x hr)
    cases x with
    | terminal t => rw [ofBody, ofBody, hrest s]
    | reference name => rw [ofBody, ofBody, h name List.mem_cons_self s, funext hrest]

namespace Grammar

variable {σ : Type} {g g' : Grammar}

/-- **Grammars that agree on what is reached run alike.** -/
theorem run_congr_of_reaches {root : Text}
    (agree : ∀ n, g.Reaches root n → g.alternatives n = g'.alternatives n) (source : Source σ)
    (strict : Bool) (levels depth : Nat) {name : Text} (h : g.Reaches root name) (s : σ) :
    g.run source strict levels depth name s = g'.run source strict levels depth name s := by
  induction levels generalizing depth name s with
  | zero => rfl
  | succ levels ih =>
    cases ha : g.alternatives name with
    | nil =>
      have ha' := (agree name h).symm.trans ha
      cases strict with
      | true => rw [run_strict_of_undefined source ha, run_strict_of_undefined source ha']
      | false => rw [run_lenient_of_undefined source ha, run_lenient_of_undefined source ha']
    | cons p ps =>
      have ha' := (agree name h).symm.trans ha
      have hbody : ∀ i : Fin (p :: ps).length, ∀ s,
          Run.ofBody (g.run source strict levels (depth + 1)) ((p :: ps).get i).body s
            = Run.ofBody (g'.run source strict levels (depth + 1)) ((p :: ps).get i).body s := by
        intro i s
        exact Run.ofBody_congr (fun r hr s =>
          ih (depth + 1) (.step h (refersTo_of_get ha hr)) s) s
      rw [run_of_defined source strict ha, run_of_defined source strict ha']
      simp only [hbody]

/-- **Definitions that are not reached do not matter.** If entries are edited
outside the names that are reached from a name, the grammar they make then
expands that name as the one before: with the same result or the same error,
the same choices and notices, and the same memory of the source. -/
theorem expand_of_editedOutside {entries entries' : List Entry}
    (built : (ofEntries entries).result = .ok g) (built' : (ofEntries entries').result = .ok g')
    {name : Text} (edited : EditedOutside (g.Reaches name) entries entries') (source : Source σ)
    (settings : Settings) (s : σ) :
    g.expand source settings name s = g'.expand source settings name s := by
  have agree : ∀ n, g.Reaches name n → g.alternatives n = g'.alternatives n := by
    intro n hn
    refine alternatives_eq_of_filter_eq built built' (edited.filter_eq fun m hm => ?_)
    exact hn.trans (.self hm.symm)
  unfold expand
  rw [run_congr_of_reaches agree source _ _ 0 (.self rfl) s]

/-- A name that is reached in another spelling and past a redefinition, with
an entry in front of it deleted, one behind it changed into one of another
name, and one inserted at the end: the expansion passes the same undefined
name over and goes too deep at the same one. -/
theorem expand_of_editedOutside_of_respelled :
    let entries := [["<lost>".toList, "x".toList], ["<start>".toList, "a <Mid> <gone>".toList],
      ["<mid>".toList, "old".toList], ["<other>".toList, "y <start>".toList],
      ["<MID>".toList, "b <none> <start>".toList]]
    let entries' := [["<start>".toList, "a <Mid> <gone>".toList],
      ["<mid>".toList, "old".toList], ["<else>".toList, []],
      ["<MID>".toList, "b <none> <start>".toList], ["<lost>".toList, "z".toList]]
    ∃ g g', (ofEntries entries).result = .ok g ∧ (ofEntries entries').result = .ok g'
      ∧ EditedOutside (g.Reaches startName) entries entries'
      ∧ (g'.expand Random.Chooser.source { maxDepth := some 3 } startName .last).result
        = .error (.grammar (.tooDeep "<Mid>".toList 3))
      ∧ g.expand Random.Chooser.source { maxDepth := some 3 } startName .last
        = g'.expand Random.Chooser.source { maxDepth := some 3 } startName .last := by
  intro entries entries'
  let g := ofDefinitions [⟨"<lost>".toList, ["x".toList]⟩,
    ⟨"<start>".toList, ["a <Mid> <gone>".toList]⟩,
    ⟨"<MID>".toList, ["b <none> <start>".toList]⟩, ⟨"<other>".toList, ["y <start>".toList]⟩]
  let g' := ofDefinitions [⟨"<start>".toList, ["a <Mid> <gone>".toList]⟩,
    ⟨"<MID>".toList, ["b <none> <start>".toList]⟩, ⟨"<else>".toList, [[]]⟩,
    ⟨"<lost>".toList, ["z".toList]⟩]
  have built : (ofEntries entries).result = .ok g := by rfl
  have built' : (ofEntries entries').result = .ok g' := by rfl
  let names := ["<start>".toList, "<mid>".toList, "<gone>".toList, "<none>".toList]
  have closed : ∀ k ∈ names, ∀ p ∈ g.alternatives k, ∀ r ∈ p.references,
      ∃ k' ∈ names, Text.fold r = Text.fold k' := by decide
  have outside : ∀ n, (∀ k ∈ names, Text.fold n ≠ Text.fold k) → ¬ g.Reaches startName n := by
    intro n hn h
    obtain ⟨k, hk, hfold⟩ := h.exists_fold_eq List.mem_cons_self closed
    exact hn k hk hfold
  have edited : EditedOutside (g.Reaches startName) entries entries' :=
    .deleted _ _ (outside _ (by decide)) <| .kept _ <| .kept _ <|
      .changed _ _ _ _ (outside _ (by decide)) (outside _ (by decide)) <| .kept _ <|
        .inserted _ _ (outside _ (by decide)) .done
  exact ⟨g, g', built, built', edited, by rfl,
    expand_of_editedOutside built built' edited Random.Chooser.source _ .last⟩

end Grammar

end SentenceForge

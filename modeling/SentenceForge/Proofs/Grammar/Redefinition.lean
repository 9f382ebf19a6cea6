import SentenceForge.Proofs.Grammar.Reordering

/-!
# Names that are defined again

A grammar is made by writing definitions into a table, reading the table out again
and searching what was read for a production of the start. What it comes to can be
said of the list of definitions alone: a name has the bodies of its last definition,
spelled as they are there, at the place of its first (`KeepsLast`). A definition that
is overwritten leaves nothing but its place, and one that overwrites another without
bodies of its own leaves the name undefined, which for `<start>` means that the start
is spelled as if it had never been defined.

The definitions that overwrite another are noticed, each when it is met. An entry
without a name ends the reading right there, so of what comes behind it nothing is
noticed and nothing made (`ofEntries_keeps_last`).
-/

namespace SentenceForge

namespace Definition

/-- **The productions of the last definition of a name**, the name folded. They have
the name as it is written there. -/
def lastProductions (ds : List Definition) (k : Text) : List Production :=
  match lastOf ds k with
  | none => []
  | some d => d.bodies.map fun body => ⟨d.name, (Text.words body).map Symbol.ofToken⟩

/-- **The definitions of a name that an earlier one has.** -/
def repetitions (ds : List Definition) : List Definition :=
  (ds.zipIdx.filter fun p => (ds.take p.2).any (·.key = p.1.key)).map Prod.fst

/-! ## One more definition -/

/-- One more definition is a repetition if its name is there. -/
theorem repetitions_concat (ds : List Definition) (d : Definition) :
    repetitions (ds ++ [d])
      = repetitions ds ++ if d.key ∈ ds.map key then [d] else [] := by
  -- up to `d` every definition has the same ones in front of it as without `d`
  have hbefore : ds.zipIdx.filter (fun p => ((ds ++ [d]).take p.2).any (·.key = p.1.key))
      = ds.zipIdx.filter fun p => (ds.take p.2).any (·.key = p.1.key) := by
    refine List.filter_congr fun p hp => ?_
    have hi : p.2 < ds.length := by simpa using (List.mem_zipIdx hp).2.1
    rw [List.take_append_of_le_length (Nat.le_of_lt hi)]
  have hlast : (([d].zipIdx ds.length).filter
        fun p => ((ds ++ [d]).take p.2).any (·.key = p.1.key)).map Prod.fst
      = if d.key ∈ ds.map key then [d] else [] := by
    have hany : ((ds ++ [d]).take ds.length).any (·.key = d.key) = decide (d.key ∈ ds.map key) := by
      rw [List.take_left, Bool.eq_iff_iff]
      simp
    rw [List.zipIdx_singleton, List.filter_singleton, hany]
    by_cases h : d.key ∈ ds.map key <;> simp [h]
  rw [repetitions, List.zipIdx_append, List.filter_append, List.map_append, hbefore,
    Nat.zero_add, hlast, repetitions]

/-- One more definition is repeated if its name was seen or is there. -/
theorem repeated_concat (seen : List Text) (ds : List Definition) (d : Definition) :
    repeated seen (ds ++ [d])
      = repeated seen ds ++ if d.key ∈ seen ∨ d.key ∈ ds.map key then [d] else [] := by
  induction ds generalizing seen with
  | nil => simp [repeated]
  | cons e ds ih =>
    have hseen : (d.key ∈ e.key :: seen ∨ d.key ∈ ds.map key)
        ↔ (d.key ∈ seen ∨ d.key ∈ (e :: ds).map key) := by
      rw [List.mem_cons, List.map_cons, List.mem_cons]
      tauto
    rw [List.cons_append, repeated, repeated, ih, List.append_assoc]
    simp only [hseen]

/-- **What is repeated has its name earlier in the list.** -/
theorem repeated_eq_repetitions (ds : List Definition) : repeated [] ds = repetitions ds := by
  induction ds using List.reverseRecOn with
  | nil => rfl
  | append_singleton ds d ih =>
    rw [repeated_concat, repetitions_concat, ih]
    simp only [List.not_mem_nil, false_or]

/-- **The notices are of the repetitions**, in their order. -/
theorem redefinitions_eq (ds : List Definition) :
    redefinitions [] ds = (repetitions ds).map fun d => .redefined d.name := by
  rw [redefinitions_eq_map, repeated_eq_repetitions]

/-! ## What the last definitions make -/

variable (ds : List Definition)

theorem lastProductions_eq (k : Text) :
    lastProductions ds k = ((lastOf ds k).map Definition.productions).getD [] := by
  unfold lastProductions
  cases lastOf ds k <;> rfl

/-- Definitions that are kept make the productions of the last of each name. -/
theorem flatMap_productions_kept :
    (kept ds).flatMap Definition.productions
      = (ds.map key).eraseDups.flatMap (lastProductions ds) := by
  rw [kept, List.filterMap_eq_flatMap_toList, List.flatMap_assoc]
  refine congrArg (List.flatMap · _) (funext fun k => ?_)
  rw [lastProductions_eq]
  cases lastOf ds k with
  | none => rfl
  | some d => exact List.flatMap_singleton ..

end Definition

namespace Grammar

open Definition

/-- **A grammar keeps the last definition of each name.** -/
structure KeepsLast (ds : List Definition) (g : Grammar) : Prop where
  /-- Its productions are those of the last definition of each name, the names in the
  order in which they are first defined. -/
  productions : g.productions = (ds.map key).eraseDups.flatMap (lastProductions ds)
  /-- The alternatives of a name are those of its last definition. -/
  alternatives : ∀ name, g.alternatives name = lastProductions ds (Text.fold name)
  /-- The names that are defined are those whose last definition has bodies. -/
  defines : ∀ name, g.defines name = true ↔ lastProductions ds (Text.fold name) ≠ []
  /-- The start is spelled as in its last definition, if this has bodies. -/
  start : g.start
    = (((lastOf ds startName).filter (·.bodies ≠ [])).map Definition.name).getD startName

/-- **The start is spelled as in its last definition**, if this has bodies. -/
theorem start_ofDefinitions_kept (ds : List Definition) :
    (ofDefinitions (kept ds)).start
      = (((lastOf ds startName).filter (·.bodies ≠ [])).map Definition.name).getD startName := by
  show startOf (ofDefinitions (kept ds)).productions = _
  rw [startOf_eq, alternatives_kept, fold_startName]
  cases lastOf ds startName with
  | none => rfl
  | some d =>
    obtain ⟨name, bodies⟩ := d
    cases bodies <;> rfl

/-- The grammar of what is kept keeps the last of each name. -/
theorem keepsLast_ofDefinitions_kept (ds : List Definition) :
    (ofDefinitions (kept ds)).KeepsLast ds := by
  have halternatives (name : Text) : (ofDefinitions (kept ds)).alternatives name
      = lastProductions ds (Text.fold name) := by
    rw [alternatives_kept, lastProductions_eq]
  exact {
    productions := flatMap_productions_kept ds
    alternatives := halternatives
    defines := fun name => by rw [defines_iff, halternatives]
    start := start_ofDefinitions_kept ds }

/-! ## What entries make -/

/-- **Entries make a grammar that keeps the last definition of each name.** There is a
notice of every definition whose name is there before it, in their order. An entry
without a name ends the reading where it stands, and definitions of which none that
is last has bodies make no grammar. -/
theorem ofEntries_keeps_last (entries : List Entry) :
    (∃ ds rest, entries = ds.map entry ++ [] :: rest
      ∧ ofEntries entries
        = ⟨(repetitions ds).map fun d => .redefined d.name, .error .emptyEntry⟩)
    ∨ ∃ ds, entries = ds.map entry
      ∧ ((∀ d ∈ ds, lastProductions ds d.key = [])
          ∧ ofEntries entries
            = ⟨(repetitions ds).map fun d => .redefined d.name,
              .error (.grammar (.noStart startName))⟩
        ∨ (∃ d ∈ ds, lastProductions ds d.key ≠ [])
          ∧ ∃ g, ofEntries entries
            = ⟨((repetitions ds).map fun d => .redefined d.name)
                ++ [.built (ds.map key).eraseDups.length g.productions.length], .ok g⟩
            ∧ g.KeepsLast ds) := by
  obtain ⟨ds, rfl⟩ | ⟨ds, rest, rfl⟩ := exists_map_entry_or entries
  · have hnone : (kept ds).flatMap Definition.productions = []
        ↔ ∀ d ∈ ds, lastProductions ds d.key = [] := by
      rw [flatMap_productions_kept, List.flatMap_eq_nil_iff]
      simp only [List.mem_eraseDups, List.forall_mem_map]
    refine .inr ⟨ds, rfl, ?_⟩
    rw [ofEntries_definitions, redefinitions_eq, ← map_key_kept, List.length_map]
    by_cases h : (kept ds).flatMap Definition.productions = []
    · rw [if_pos h]
      exact .inl ⟨hnone.1 h, rfl⟩
    · rw [if_neg h]
      have hsome : ∃ d ∈ ds, lastProductions ds d.key ≠ [] := by
        simpa using mt hnone.2 h
      exact .inr ⟨hsome, _, rfl, keepsLast_ofDefinitions_kept ds⟩
  · exact .inl ⟨ds, rest, rfl, by rw [ofEntries_append_empty, redefinitions_eq]⟩

/-- The start is defined again without bodies, and the other name in capitals. -/
example :
    let made := ofEntries [["<Start>".toList, "<b>".toList], ["<b>".toList, "x".toList],
      ["<START>".toList], ["<B>".toList, "y".toList, "<b>".toList]]
    made.notices = [.redefined "<START>".toList, .redefined "<B>".toList, .built 2 2]
      ∧ made.result.map (fun g => (g.start, g.productions))
        = .ok ("<start>".toList, [⟨"<B>".toList, [.terminal "y".toList]⟩,
          ⟨"<B>".toList, [.reference "<b>".toList]⟩]) :=
  ⟨rfl, rfl⟩

end Grammar

end SentenceForge

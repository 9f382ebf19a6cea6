import Mathlib.Data.List.Induction
import Mathlib.Data.List.Nodup
import SentenceForge.Grammar.Builder
import SentenceForge.Proofs.Table
import SentenceForge.Proofs.Text.Words

/-!
# What a grammar is built of

Of a list of definitions a grammar keeps the last of each name, in the
order in which the names first occur. `Definition.kept` is that list, and
a grammar that is built at all is the grammar of what is kept, with its
productions one definition after the other (`ofEntries_definitions`,
`exists_kept_of_ofEntries`).

No two of the definitions that are kept have the same name, so the
alternatives of a name are the productions of one definition
(`alternatives_kept`), and a name that was defined last without bodies has
none, whatever was defined before.
-/

namespace SentenceForge

/-- Whether an entry is one of a name, the name folded. An empty entry is
one of no name. -/
def Entry.isOf (k : Text) : Entry → Bool
  | [] => false
  | name :: _ => Text.fold name = k

namespace Definition

/-- The name of a definition as names are compared. -/
def key (d : Definition) : Text := Text.fold d.name

/-- The productions a definition makes. -/
def productions (d : Definition) : List Production := Production.ofBodies d.name d.bodies

/-- A definition with its bodies as their words. -/
def tokens (d : Definition) : Text × List (List Text) := (d.name, d.bodies.map Text.words)

/-- **The last definition of a name** among several, the name folded. -/
def lastOf (ds : List Definition) (k : Text) : Option Definition :=
  (ds.filter (·.key = k)).getLast?

/-- **The definitions that are kept**: the last of each name, names in the
order in which they first occur. -/
def kept (ds : List Definition) : List Definition :=
  (ds.map key).eraseDups.filterMap (lastOf ds)

/-- The notices of redefinition: one for each definition of a name that
was seen before it. -/
def redefinitions : List Text → List Definition → List Notice
  | _, [] => []
  | seen, d :: ds =>
    (if d.key ∈ seen then [.redefined d.name] else []) ++ redefinitions (d.key :: seen) ds

/-! ## The entries of a name -/

/-- The entry of a definition says what the definition is. -/
theorem entry_injective : Function.Injective entry := by
  rintro ⟨name, bodies⟩ ⟨name', bodies'⟩ h
  obtain ⟨rfl, rfl⟩ := List.cons.inj h
  rfl

/-- **Entries are those of definitions**, all of them or up to one that is empty. -/
theorem exists_map_entry_or (entries : List Entry) :
    (∃ ds : List Definition, entries = ds.map entry)
      ∨ ∃ (ds : List Definition) (rest : List Entry), entries = ds.map entry ++ [] :: rest := by
  induction entries with
  | nil => exact .inl ⟨[], rfl⟩
  | cons e entries ih =>
    cases e with
    | nil => exact .inr ⟨[], entries, rfl⟩
    | cons name bodies =>
      obtain ⟨ds, rfl⟩ | ⟨ds, rest, rfl⟩ := ih
      · exact .inl ⟨⟨name, bodies⟩ :: ds, rfl⟩
      · exact .inr ⟨⟨name, bodies⟩ :: ds, rest, rfl⟩

/-- Entries that are not empty are the entries of definitions. -/
theorem exists_map_entry {entries : List Entry} (h : ∀ e ∈ entries, e ≠ []) :
    ∃ ds : List Definition, entries = ds.map entry := by
  refine (exists_map_entry_or entries).resolve_right ?_
  rintro ⟨ds, rest, rfl⟩
  exact h [] (List.mem_append_right _ List.mem_cons_self) rfl

/-- The entries of a name are those of the definitions of it. -/
theorem filter_isOf_map_entry (ds : List Definition) (k : Text) :
    (ds.map entry).filter (Entry.isOf k) = (ds.filter (·.key = k)).map entry := by
  rw [List.filter_map]
  rfl

/-! ## The last definition of a name -/

theorem lastOf_concat (ds : List Definition) (d : Definition) (k : Text) :
    lastOf (ds ++ [d]) k = if d.key = k then some d else lastOf ds k := by
  unfold lastOf
  rw [List.filter_append]
  by_cases h : d.key = k <;> simp [h]

/-- The last definition of a name is a definition of it. -/
theorem mem_of_lastOf {ds : List Definition} {k : Text} {d : Definition}
    (h : lastOf ds k = some d) : d ∈ ds ∧ d.key = k := by
  have hd := List.mem_of_getLast? h
  rw [List.mem_filter] at hd
  exact ⟨hd.1, of_decide_eq_true hd.2⟩

/-- A name has a last definition if it has one. -/
theorem lastOf_isSome {ds : List Definition} {k : Text} :
    (lastOf ds k).isSome ↔ k ∈ ds.map key := by
  rw [lastOf, List.getLast?_isSome, ne_eq, List.filter_eq_nil_iff, List.mem_map]
  simp

/-- Of definitions that a function tells apart one has a value of it. -/
theorem filter_of_nodup {κ : Type} [DecidableEq κ] {f : Definition → κ} {ds : List Definition}
    (h : (ds.map f).Nodup) {d : Definition} (hd : d ∈ ds) : ds.filter (f · = f d) = [d] := by
  induction ds with
  | nil => exact absurd hd List.not_mem_nil
  | cons e ds ih =>
    rw [List.map_cons, List.nodup_cons] at h
    rcases List.mem_cons.1 hd with rfl | hd
    · have hrest : ds.filter (f · = f d) = [] :=
        List.filter_eq_nil_iff.2 fun e he heq =>
          h.1 (of_decide_eq_true heq ▸ List.mem_map_of_mem he)
      rw [List.filter_cons_of_pos (by simp), hrest]
    · have hne : f e ≠ f d := fun heq => h.1 (heq ▸ List.mem_map_of_mem hd)
      rw [List.filter_cons_of_neg (by simp [hne]), ih h.2 hd]

/-- Of definitions with different names the last of a name is the only
one. -/
theorem lastOf_of_nodup {ds : List Definition} (h : (ds.map key).Nodup)
    {d : Definition} (hd : d ∈ ds) : lastOf ds d.key = some d := by
  unfold lastOf
  rw [filter_of_nodup h hd]
  rfl

/-! ## What is kept -/

/-- **What is kept is the last of its name.** -/
theorem mem_kept {ds : List Definition} {d : Definition} :
    d ∈ kept ds ↔ lastOf ds d.key = some d := by
  unfold kept
  rw [List.mem_filterMap]
  constructor
  · rintro ⟨k, -, hk⟩
    obtain ⟨-, rfl⟩ := mem_of_lastOf hk
    exact hk
  · intro h
    exact ⟨d.key, List.mem_eraseDups.2 (List.mem_map_of_mem (mem_of_lastOf h).1), h⟩

/-- The names of a list of keys that all have a definition. -/
theorem map_key_filterMap_lastOf {ds : List Definition} {ks : List Text}
    (h : ∀ k ∈ ks, k ∈ ds.map key) : (ks.filterMap (lastOf ds)).map key = ks := by
  induction ks with
  | nil => rfl
  | cons k ks ih =>
    rw [List.forall_mem_cons] at h
    obtain ⟨d, hd⟩ := Option.isSome_iff_exists.1 (lastOf_isSome.2 h.1)
    rw [List.filterMap_cons_some hd, List.map_cons, ih h.2, (mem_of_lastOf hd).2]

/-- **The names that are kept are the names that are defined.** -/
theorem map_key_kept (ds : List Definition) : (kept ds).map key = (ds.map key).eraseDups :=
  map_key_filterMap_lastOf fun _ hk => List.mem_eraseDups.1 hk

theorem eraseDups_of_nodup {ks : List Text} (h : ks.Nodup) : ks.eraseDups = ks := by
  induction ks with
  | nil => rfl
  | cons k ks ih =>
    rw [List.nodup_cons] at h
    have hself : ks.filter (fun k' => !k' == k) = ks := by
      refine List.filter_eq_self.2 fun k' hk' => ?_
      have hne : k' ≠ k := fun e => h.1 (e ▸ hk')
      simpa using hne
    rw [List.eraseDups_cons, hself, ih h.2]

/-- **Definitions with different names are all kept**, in their order. -/
theorem kept_of_nodup {ds : List Definition} (h : (ds.map key).Nodup) : kept ds = ds := by
  have hall : ∀ es : List Definition, (∀ e ∈ es, e ∈ ds) →
      (es.map key).filterMap (lastOf ds) = es := by
    intro es hes
    induction es with
    | nil => rfl
    | cons e es ih =>
      rw [List.forall_mem_cons] at hes
      rw [List.map_cons, List.filterMap_cons_some (lastOf_of_nodup h hes.1), ih hes.2]
  rw [kept, eraseDups_of_nodup h, hall ds fun e he => he]

/-- Definitions with different names give no notice. -/
theorem redefinitions_of_nodup {seen : List Text} {ds : List Definition}
    (h : (ds.map key).Nodup) (hseen : ∀ d ∈ ds, d.key ∉ seen) :
    redefinitions seen ds = [] := by
  induction ds generalizing seen with
  | nil => rfl
  | cons d ds ih =>
    rw [List.map_cons, List.nodup_cons] at h
    rw [List.forall_mem_cons] at hseen
    have hrest : ∀ e ∈ ds, e.key ∉ d.key :: seen := by
      intro e he hmem
      rcases List.mem_cons.1 hmem with heq | hmem
      · exact h.1 (heq ▸ List.mem_map_of_mem he)
      · exact hseen.2 e he hmem
    rw [redefinitions, if_neg hseen.1, ih h.2 hrest]
    rfl

end Definition

namespace Grammar

open Definition

/-! ## Collecting definitions -/

/-- The table after definitions are put into it in turn. -/
def tableOf (table : Table Text (List Production)) (ds : List Definition) :
    Table Text (List Production) :=
  ds.foldl (fun t d => t.put d.key d.productions) table

theorem tableOf_concat (t : Table Text (List Production)) (ds : List Definition)
    (d : Definition) : tableOf t (ds ++ [d]) = (tableOf t ds).put d.key d.productions := by
  rw [tableOf, List.foldl_append]
  rfl

/-- **Collecting definitions goes on from their table**, after a notice for each
name seen before. -/
theorem collect_append (t : Table Text (List Production)) (seen : List Text)
    (hseen : ∀ k, t.has k = true ↔ k ∈ seen) (ds : List Definition) (entries : List Entry) :
    collect t (ds.map entry ++ entries)
      = ⟨redefinitions seen ds ++ (collect (tableOf t ds) entries).notices,
        (collect (tableOf t ds) entries).result⟩ := by
  -- the names seen are the keys of the table, and a step adds one to both
  induction ds generalizing t seen with
  | nil => rfl
  | cons d ds ih =>
    have hput : ∀ k, (t.put d.key d.productions).has k = true ↔ k ∈ d.key :: seen := by
      intro k
      rw [Table.has_put, Bool.or_eq_true, decide_eq_true_eq, hseen, List.mem_cons, eq_comm]
    show (if t.has d.key
      then (collect (t.put d.key d.productions) (ds.map entry ++ entries)).noting
        (.redefined d.name)
      else collect (t.put d.key d.productions) (ds.map entry ++ entries)) = _
    rw [ih _ _ hput, redefinitions]
    by_cases h : d.key ∈ seen
    · rw [if_pos ((hseen _).2 h), if_pos h]
      rfl
    · rw [if_neg (mt (hseen _).1 h), if_neg h]
      rfl

/-- At first no name is seen. -/
theorem has_empty_iff (k : Text) :
    (Table.empty : Table Text (List Production)).has k = true ↔ k ∈ [] := by
  rw [Table.has_eq_isSome, Table.get?_empty]
  simp

/-- **Collecting definitions ends in their table.** -/
theorem collect_definitions (ds : List Definition) :
    collect .empty (ds.map entry) = ⟨redefinitions [] ds, .ok (tableOf .empty ds)⟩ := by
  have h := collect_append .empty [] has_empty_iff ds []
  rw [List.append_nil] at h
  rw [h]
  show (⟨redefinitions [] ds ++ [], .ok (tableOf .empty ds)⟩ : Logged _) = _
  rw [List.append_nil]

/-! ## What the table holds -/

/-- **The table has the last definition of each name.** -/
theorem get?_tableOf (ds : List Definition) (k : Text) :
    (tableOf .empty ds).get? k = (lastOf ds k).map Definition.productions := by
  induction ds using List.reverseRecOn with
  | nil => exact Table.get?_empty k
  | append_singleton ds d ih =>
    rw [tableOf_concat, lastOf_concat]
    by_cases h : d.key = k
    · subst h
      rw [Table.get?_put_self, if_pos rfl]
      rfl
    · rw [Table.get?_put_of_ne _ _ h, ih, if_neg h]

/-- **The table has the names in the order in which they first occur.** -/
theorem keys_tableOf (ds : List Definition) :
    (tableOf .empty ds).keys = (ds.map key).eraseDups :=
  Table.keys_foldl_put key (fun _ d => d.productions) ds

end Grammar

/-- **No two definitions with the same name are kept.** -/
theorem Definition.nodup_kept (ds : List Definition) : ((kept ds).map key).Nodup := by
  rw [map_key_kept, ← Grammar.keys_tableOf]
  exact Table.nodup_keys _

namespace Grammar

open Definition

/-- **The table lists what is kept.** -/
theorem toList_tableOf (ds : List Definition) :
    (tableOf .empty ds).toList = (kept ds).map fun d => (d.key, d.productions) := by
  rw [Table.toList, keys_tableOf, kept, List.map_filterMap]
  refine List.filterMap_congr fun k _ => ?_
  rw [get?_tableOf]
  cases h : lastOf ds k with
  | none => rfl
  | some d =>
    obtain ⟨-, rfl⟩ := mem_of_lastOf h
    rfl

/-! ## The grammar of definitions -/

/-- **The grammar of definitions**: their productions one after the other,
with the start among them. -/
def ofDefinitions (ds : List Definition) : Grammar :=
  ofProductions (startOf (ds.flatMap Definition.productions)) (ds.flatMap Definition.productions)

/-- **The grammar that definitions make** is that of what is kept of them,
if that has a production at all. -/
theorem ofEntries_definitions (ds : List Definition) :
    ofEntries (ds.map entry)
      = if (kept ds).flatMap Definition.productions = [] then
          ⟨redefinitions [] ds, .error (.grammar (.noStart startName))⟩
        else
          ⟨redefinitions [] ds
              ++ [.built (kept ds).length ((kept ds).flatMap Definition.productions).length],
            .ok (ofDefinitions (kept ds))⟩ := by
  have hps : ((tableOf .empty ds).toList.map Prod.snd).flatten
      = (kept ds).flatMap Definition.productions := by
    rw [toList_tableOf, List.map_map, ← List.flatMap_def]
    rfl
  have hsize : (tableOf .empty ds).size = (kept ds).length := by
    have hlength := congrArg List.length (Table.map_fst_toList (tableOf .empty ds))
    rw [toList_tableOf, List.length_map, List.length_map] at hlength
    rw [hlength, Table.keys, List.length_reverse]
    rfl
  unfold ofEntries
  rw [collect_definitions]
  show (⟨redefinitions [] ds ++ (ofTable (tableOf .empty ds)).notices,
    (ofTable (tableOf .empty ds)).result⟩ : Logged Grammar) = _
  unfold ofTable
  rw [hps, hsize]
  by_cases h : (kept ds).flatMap Definition.productions = []
  · rw [if_pos h, if_pos (List.isEmpty_iff.2 h)]
    simp [Logged.fail]
  · rw [if_neg h, if_neg (mt List.isEmpty_iff.1 h)]
    rfl

/-- **An entry without a name ends the reading**, after the notices of those before
it. -/
theorem ofEntries_append_empty (ds : List Definition) (rest : List Entry) :
    ofEntries (ds.map entry ++ [] :: rest) = ⟨redefinitions [] ds, .error .emptyEntry⟩ := by
  unfold ofEntries
  rw [collect_append .empty [] has_empty_iff]
  show (⟨redefinitions [] ds ++ [], .error .emptyEntry⟩ : Logged Grammar) = _
  rw [List.append_nil]

/-- A text that is read makes the grammar of its definitions. -/
theorem ofText_of_read {text : Text} {ds : List Definition}
    (h : Definition.ofText text = .ok ds) :
    ofText text = ofEntries (ds.map entry) := by
  unfold ofText
  rw [h]

/-- **A grammar that is built is that of the definitions it keeps.** -/
theorem exists_kept_of_ofEntries {entries : List Entry} {g : Grammar}
    (h : (ofEntries entries).result = .ok g) :
    ∃ ds : List Definition, entries = ds.map entry ∧ g = ofDefinitions (kept ds)
      ∧ (kept ds).flatMap Definition.productions ≠ [] := by
  obtain ⟨ds, rfl⟩ | ⟨ds, rest, rfl⟩ := exists_map_entry_or entries
  · rw [ofEntries_definitions] at h
    by_cases hps : (kept ds).flatMap Definition.productions = []
    · rw [if_pos hps] at h
      cases h
    · rw [if_neg hps] at h
      exact ⟨ds, rfl, (Except.ok.inj h).symm, hps⟩
  · rw [ofEntries_append_empty] at h
    cases h

/-! ## Its productions by name -/

/-- An alternative of a name is a production. -/
theorem mem_of_mem_alternatives {g : Grammar} {name : Text} {p : Production}
    (h : p ∈ g.alternatives name) : p ∈ g.productions := by
  rw [alternatives_eq_filter] at h
  exact List.mem_of_mem_filter h

/-- A production of the grammar is a body of one of the definitions. -/
theorem mem_productions_ofDefinitions {ds : List Definition} {p : Production} :
    p ∈ (ofDefinitions ds).productions
      ↔ ∃ d ∈ ds, ∃ body ∈ d.bodies, Production.ofText d.name body = p := by
  show p ∈ ds.flatMap Definition.productions ↔ _
  simp only [List.mem_flatMap, Definition.productions, Production.ofBodies, List.mem_map]

/-- **A symbol of a body is read off a word**, which it is the symbol
of. -/
theorem isWord_of_mem_body {ds : List Definition} {p : Production} {x : Symbol}
    (hp : p ∈ (ofDefinitions ds).productions) (hx : x ∈ p.body) :
    Text.IsWord x.token ∧ x = Symbol.ofToken x.token := by
  obtain ⟨d, -, body, -, rfl⟩ := mem_productions_ofDefinitions.1 hp
  obtain ⟨t, ht, rfl⟩ := List.mem_map.1 hx
  rw [Symbol.token_ofToken]
  exact ⟨Text.isWord_of_mem_words ht, rfl⟩

/-- The productions of a definition have its name. -/
theorem name_of_mem_productions {d : Definition} {p : Production} (h : p ∈ d.productions) :
    p.name = d.name := by
  obtain ⟨body, -, rfl⟩ := List.mem_map.1 h
  rfl

/-- **The productions whose names have a value** of a function are those of
the definitions whose names have it. -/
theorem filter_flatMap_productions {κ : Type} [DecidableEq κ] (f : Text → κ) (k : κ)
    (ds : List Definition) :
    (ds.flatMap Definition.productions).filter (f ·.name = k)
      = (ds.filter (f ·.name = k)).flatMap Definition.productions := by
  induction ds with
  | nil => rfl
  | cons d ds ih =>
    rw [List.flatMap_cons, List.filter_append, ih]
    by_cases h : f d.name = k
    · have hall : d.productions.filter (f ·.name = k) = d.productions :=
        List.filter_eq_self.2 fun p hp => by simp [name_of_mem_productions hp, h]
      rw [hall, List.filter_cons_of_pos (by simpa using h), List.flatMap_cons]
    · have hnone : d.productions.filter (f ·.name = k) = [] :=
        List.filter_eq_nil_iff.2 fun p hp => by simp [name_of_mem_productions hp, h]
      rw [hnone, List.filter_cons_of_neg (by simpa using h), List.nil_append]

/-- **The alternatives of a name are the productions of the definitions of
it**, one after the other. -/
theorem alternatives_ofDefinitions (ds : List Definition) (name : Text) :
    (ofDefinitions ds).alternatives name
      = (ds.filter (·.key = Text.fold name)).flatMap Definition.productions := by
  rw [alternatives_eq_filter]
  exact filter_flatMap_productions Text.fold (Text.fold name) ds

/-- What is kept of a name is its last definition. -/
theorem filter_kept (ds : List Definition) (k : Text) :
    (kept ds).filter (·.key = k) = (lastOf ds k).toList := by
  cases h : lastOf ds k with
  | some d =>
    obtain ⟨-, rfl⟩ := mem_of_lastOf h
    exact filter_of_nodup (nodup_kept ds) (mem_kept.2 h)
  | none =>
    refine List.filter_eq_nil_iff.2 fun d hd heq => ?_
    rw [mem_kept, of_decide_eq_true heq, h] at hd
    cases hd

/-- **The alternatives of a name are the productions of its last
definition**, if it has one. -/
theorem alternatives_kept (ds : List Definition) (name : Text) :
    (ofDefinitions (kept ds)).alternatives name
      = ((lastOf ds (Text.fold name)).map Definition.productions).getD [] := by
  rw [alternatives_ofDefinitions, filter_kept]
  cases lastOf ds (Text.fold name) with
  | none => rfl
  | some d => exact List.flatMap_singleton ..

/-- **The alternatives of a name depend on the entries of it only**, in
their order. -/
theorem alternatives_eq_of_filter_eq {entries entries' : List Entry} {g g' : Grammar}
    (built : (ofEntries entries).result = .ok g) (built' : (ofEntries entries').result = .ok g')
    {name : Text} (h : entries.filter (Entry.isOf (Text.fold name))
      = entries'.filter (Entry.isOf (Text.fold name))) :
    g.alternatives name = g'.alternatives name := by
  obtain ⟨ds, rfl, rfl, -⟩ := exists_kept_of_ofEntries built
  obtain ⟨ds', rfl, rfl, -⟩ := exists_kept_of_ofEntries built'
  rw [filter_isOf_map_entry, filter_isOf_map_entry] at h
  rw [alternatives_kept, alternatives_kept, lastOf, lastOf, List.map_injective_iff.2 entry_injective h]

/-! ## Its bodies by name -/

/-- Definitions with different names are written differently. -/
theorem nodup_map_name {ds : List Definition} (h : (ds.map key).Nodup) :
    (ds.map Definition.name).Nodup := by
  refine List.Nodup.of_map Text.fold ?_
  rwa [List.map_map]

/-- The productions of a definition have one name, if there are any. -/
theorem eraseDups_map_name_productions (d : Definition) :
    (d.productions.map Production.name).eraseDups = if d.bodies = [] then [] else [d.name] := by
  unfold Definition.productions Production.ofBodies
  cases d.bodies with
  | nil => rfl
  | cons body bodies =>
    have hrest : ((bodies.map (Production.ofText d.name)).map Production.name).filter
        (fun n => !n == d.name) = [] := by
      refine List.filter_eq_nil_iff.2 fun n hn => ?_
      rw [List.map_map] at hn
      obtain ⟨b, -, rfl⟩ := List.mem_map.1 hn
      simp [Production.ofText]
    rw [List.map_cons, List.map_cons, List.eraseDups_cons]
    show d.name :: (List.filter (fun n => !n == d.name) _).eraseDups = _
    rw [hrest, if_neg (List.cons_ne_nil body bodies), List.eraseDups_nil]

/-- The names that productions have are the names of the definitions that
make any. -/
theorem eraseDups_map_name {ds : List Definition} (h : (ds.map Definition.name).Nodup) :
    ((ds.flatMap Definition.productions).map Production.name).eraseDups
      = (ds.filter (·.bodies ≠ [])).map Definition.name := by
  induction ds with
  | nil => rfl
  | cons d ds ih =>
    rw [List.map_cons, List.nodup_cons] at h
    -- the name of `d` is none of those behind it, which therefore stay
    have hrest : ((ds.flatMap Definition.productions).map Production.name).removeAll
        (d.productions.map Production.name)
        = (ds.flatMap Definition.productions).map Production.name := by
      refine List.filter_eq_self.2 fun n hn => ?_
      obtain ⟨p, hp, rfl⟩ := List.mem_map.1 hn
      obtain ⟨e, he, hpe⟩ := List.mem_flatMap.1 hp
      have hne : p.name ∉ d.productions.map Production.name := by
        intro hmem
        obtain ⟨q, hq, hqp⟩ := List.mem_map.1 hmem
        rw [name_of_mem_productions hq, name_of_mem_productions hpe] at hqp
        exact h.1 (hqp ▸ List.mem_map_of_mem he)
      simpa using hne
    rw [List.flatMap_cons, List.map_append, List.eraseDups_append, hrest, ih h.2,
      eraseDups_map_name_productions]
    by_cases hbodies : d.bodies = []
    · rw [if_pos hbodies, List.filter_cons_of_neg (by simpa using hbodies), List.nil_append]
    · rw [if_neg hbodies, List.filter_cons_of_pos (by simpa using hbodies)]
      rfl

/-- **The bodies by name are those of the definitions that have any**, as
their words. -/
theorem toList_tokenLists_ofDefinitions {ds : List Definition} (h : (ds.map key).Nodup) :
    (ofDefinitions ds).tokenLists.toList
      = (ds.filter (·.bodies ≠ [])).map Definition.tokens := by
  have hnames := nodup_map_name h
  show (Table.group Production.name Production.tokens
    (ds.flatMap Definition.productions)).toList = _
  rw [Table.toList_group, eraseDups_map_name hnames, List.map_map]
  refine List.map_congr_left fun d hd => ?_
  have hbodies : (ds.flatMap Definition.productions).filter (·.name = d.name)
      = d.productions := by
    rw [filter_flatMap_productions (fun n => n) d.name ds,
      filter_of_nodup hnames (List.mem_of_mem_filter hd), List.flatMap_singleton]
  have htokens : d.productions.map Production.tokens = d.bodies.map Text.words := by
    simp [Definition.productions, Production.ofBodies, Function.comp_def]
  show (d.name, List.map _ (List.filter _ _)) = _
  rw [hbodies, htokens, Definition.tokens]

/-! ## The start -/

/-- **The start is `<start>`**, in some spelling. -/
theorem fold_startOf (ps : List Production) :
    Text.fold (startOf ps) = Text.fold startName := by
  unfold startOf
  cases h : ps.find? fun p => Text.fold p.name == Text.fold startName with
  | none => rfl
  | some p =>
    have hp := List.find?_some h
    exact beq_iff_eq.1 hp

/-- The start of a grammar that is built is `<start>`, in some spelling. -/
theorem fold_start_of_ofEntries {entries : List Entry} {g : Grammar}
    (h : (ofEntries entries).result = .ok g) : Text.fold g.start = Text.fold startName := by
  obtain ⟨ds, -, rfl, -⟩ := exists_kept_of_ofEntries h
  exact fold_startOf _

/-- **The start is written as the productions of it are**, if there are
any. -/
theorem exists_startOf_eq {ps : List Production} {p : Production} (hp : p ∈ ps)
    (hstart : Text.fold p.name = Text.fold startName) :
    ∃ q ∈ ps, Text.fold q.name = Text.fold startName ∧ startOf ps = q.name := by
  unfold startOf
  cases h : ps.find? fun p => Text.fold p.name == Text.fold startName with
  | none => exact absurd (beq_iff_eq.2 hstart) (List.find?_eq_none.1 h p hp)
  | some q =>
    have hq := List.find?_some h
    exact ⟨q, List.mem_of_find?_eq_some h, beq_iff_eq.1 hq, rfl⟩

/-- The start has no case to fold. -/
theorem fold_startName : Text.fold startName = startName := by rfl

/-- **The start is written as its first alternative is**, if it has one. -/
theorem startOf_eq (g : Grammar) :
    startOf g.productions
      = ((g.alternatives startName).head?.map Production.name).getD startName := by
  have hfind : g.productions.find? (Text.fold ·.name = Text.fold startName)
      = g.productions.find? fun p => Text.fold p.name == Text.fold startName :=
    congrArg (g.productions.find? ·) (funext fun _ => (Bool.beq_eq_decide_eq ..).symm)
  rw [alternatives_eq_filter, List.head?_filter, hfind, startOf]
  cases g.productions.find? fun p => Text.fold p.name == Text.fold startName with
  | none => rfl
  | some p => rfl

/-- Without a production of it the start is written as it is here. -/
theorem startOf_eq_startName {ps : List Production}
    (h : ∀ p ∈ ps, Text.fold p.name ≠ Text.fold startName) : startOf ps = startName := by
  have hnone : (ps.find? fun p => Text.fold p.name == Text.fold startName) = none :=
    List.find?_eq_none.2 fun p hp heq => h p hp (beq_iff_eq.1 heq)
  unfold startOf
  rw [hnone]

end Grammar

end SentenceForge

import Mathlib.Data.List.Induction
import SentenceForge.Proofs.CommandLine.Mention

/-!
# Mentions read back

Arguments that mention options in full are read as what they say, one mention after the
other (`parse_arguments`): nothing is left over, a name is not taken for a longer one, and
a value is not taken for an option. The first pass finds the options and the values where
the mentions have them, the second gives each option its value, and both take a mention at
a time.

Of the options it is needed that their names can be told from each other and from their
values (`WellNamed`), which is a matter of dashes, equals signs and repetitions. That one
name begins another does no harm, as a name in full is looked for first.
-/

namespace SentenceForge.CommandLine

/-! ## Names that can be told apart -/

variable {α : Type} {specs : List (OptionSpec α)} {o : OptionSpec α} {m : Mention}

/-- **Options are well named**: their long names are two dashes and more, have no equals
sign, and are different. -/
@[mk_iff]
structure WellNamed (specs : List (OptionSpec α)) : Prop where
  /-- A name begins with two dashes. -/
  dashes : ∀ o ∈ specs, Given.mark <+: o.long
  /-- A name has more than two dashes. -/
  long : ∀ o ∈ specs, 2 < o.long.length
  /-- A name has no equals sign. -/
  no_equals : ∀ o ∈ specs, '=' ∉ o.long
  /-- No two names are the same. -/
  distinct : (specs.map OptionSpec.long).Nodup

instance : DecidablePred (@WellNamed α) := fun specs =>
  decidable_of_iff' _ (wellNamed_iff specs)

/-- Of different names each is found. -/
theorem find?_long (distinct : (specs.map OptionSpec.long).Nodup) (ho : o ∈ specs) :
    (specs.find? fun p => p.long == o.long) = some o := by
  induction specs with
  | nil => exact absurd ho List.not_mem_nil
  | cons p specs ih =>
    rw [List.map_cons, List.nodup_cons] at distinct
    obtain rfl | ho := List.mem_cons.1 ho
    · rw [List.find?_cons_of_pos (by simp)]
    · have hne : p.long ≠ o.long := fun heq =>
        distinct.1 (heq ▸ List.mem_map_of_mem ho)
      rw [List.find?_cons_of_neg (by simpa using hne), ih distinct.2 ho]

/-- What is longer than a letter with its dash is looked for among the long names. -/
theorem findExact_of_length {text : Text} (h : 2 < text.length) :
    findExact specs text = specs.find? fun p => p.long == text := by
  unfold findExact
  split
  · exact absurd h (by simp)
  · rfl

/-- A text is cut behind a name without an equals sign. -/
theorem cutAtEquals_append {name : Text} (h : '=' ∉ name) (value : Text) :
    cutAtEquals (name ++ '=' :: value) = (name, some value) := by
  have hname : ∀ c ∈ name, (c != '=') = true := fun c hc => by
    simpa using fun heq : c = '=' => h (heq ▸ hc)
  unfold cutAtEquals
  rw [List.dropWhile_append_of_pos hname, List.takeWhile_append_of_pos hname]
  simp

namespace WellNamed

variable (named : WellNamed specs) (ho : o ∈ specs)
include named ho

/-- A name is two dashes and more. -/
theorem exists_long_eq : ∃ rest, o.long = '-' :: '-' :: rest := by
  obtain ⟨rest, hrest⟩ := named.dashes o ho
  exact ⟨rest, hrest.symm⟩

/-- **A name in full names its option**, whichever others it begins. -/
theorem findExact_long : findExact specs o.long = some o := by
  rw [findExact_of_length (named.long o ho), find?_long named.distinct ho]

/-- A name is not the mark, with or without something behind it. -/
theorem long_append_ne_mark (s : Text) : o.long ++ s ≠ Given.mark := by
  intro heq
  have hlen := congrArg List.length heq
  have hlong := named.long o ho
  have hmark : Given.mark.length = 2 := rfl
  rw [List.length_append, hmark] at hlen
  omega

/-! ## The first pass -/

/-- A name by itself is its option. -/
theorem classify_long : classify specs o.long = .ok (.option o .nothing) := by
  have hfind := named.findExact_long ho
  obtain ⟨rest, hlong⟩ := named.exists_long_eq ho
  rw [hlong] at hfind ⊢
  unfold classify
  simp only [hfind]

/-- **A name with a value is its option**, whatever the value. -/
theorem classify_joined (value : Text) :
    classify specs (o.long ++ '=' :: value) = .ok (.option o (.equals value)) := by
  have hfind := named.findExact_long ho
  have hcut := cutAtEquals_append (named.no_equals o ho) value
  have hcarried : carriedBy o o.long value = .equals value := by simp [carriedBy]
  -- no option has a name with an equals sign
  have hnone : findExact specs (o.long ++ '=' :: value) = none := by
    have hlong := named.long o ho
    rw [findExact_of_length (by rw [List.length_append]; omega), List.find?_eq_none]
    intro p hp heq
    rw [beq_iff_eq] at heq
    exact named.no_equals p hp (heq ▸ by simp)
  obtain ⟨rest, hlong⟩ := named.exists_long_eq ho
  rw [hlong] at hfind hcut hcarried hnone ⊢
  rw [List.cons_append, List.cons_append] at hcut hnone ⊢
  unfold classify
  simp only [hnone, hcut, hfind, hcarried]

end WellNamed

/-- **What does not begin with a dash is a value.** -/
theorem classify_of_head? {value : Text} (h : value.head? ≠ some '-') :
    classify specs value = .ok (.value value) := by
  unfold classify
  split
  · exact absurd rfl h
  · rfl

/-- Arguments are looked at one by one. -/
theorem classifyAll_cons {argument : Text} {a : Argument α} (hmark : argument ≠ Given.mark)
    (h : classify specs argument = .ok a) (rest : List Text) :
    classifyAll specs (argument :: rest) = (classifyAll specs rest).map (a :: ·) := by
  rw [classifyAll, if_neg hmark, h]

/-- What the arguments of a mention are. -/
def Mention.classified (o : OptionSpec α) : Mention → List (Argument α)
  | .flag _ => [.option o .nothing]
  | .joined _ value => [.option o (.equals value.spelling)]
  | .apart _ value => [.option o .nothing, .value value.spelling]

/-- **The arguments of a mention are what they say.** -/
theorem classifyAll_arguments (named : WellNamed specs) (ho : o ∈ specs) (hname : m.name = o.long)
    (hput : m.WellPut) {rest : List Text} {as : List (Argument α)}
    (hrest : classifyAll specs rest = .ok as) :
    classifyAll specs (m.arguments ++ rest) = .ok (m.classified o ++ as) := by
  have hlong : o.long ≠ Given.mark := by simpa using named.long_append_ne_mark ho []
  cases m with
  | flag name =>
    obtain rfl : name = o.long := hname
    show classifyAll specs (o.long :: rest) = _
    rw [classifyAll_cons hlong (named.classify_long ho), hrest]
    rfl
  | joined name value =>
    obtain rfl : name = o.long := hname
    show classifyAll specs ((o.long ++ '=' :: value.spelling) :: rest) = _
    rw [classifyAll_cons (named.long_append_ne_mark ho _) (named.classify_joined ho _), hrest]
    rfl
  | apart name value =>
    obtain rfl : name = o.long := hname
    have hmark : value.spelling ≠ Given.mark := fun heq => hput (by rw [heq]; rfl)
    show classifyAll specs (o.long :: value.spelling :: rest) = _
    rw [classifyAll_cons hlong (named.classify_long ho),
      classifyAll_cons hmark (classify_of_head? hput), hrest]
    rfl

/-! ## The second pass -/

/-- The record of options when an option is given a value, or is given without one. -/
def OptionSpec.give (o : OptionSpec α) (options : α) (value : Option Value) : α :=
  match o.effect, value with
  | .flag set, none => set options
  | .text set, some (.text t) => set (.value t) options
  | .integer set, some (.integer d) => set (.value d.value) options
  | _, _ => options

/-- The record of options behind a mention. -/
def given (specs : List (OptionSpec α)) (options : α) (m : Mention) : α :=
  match specs.find? fun o => o.long == m.name with
  | some o => o.give options m.value?
  | none => options

/-- The reading behind a mention. -/
def Reading.behind (specs : List (OptionSpec α)) (r : Reading α) (m : Mention) : Reading α :=
  ⟨given specs r.options m, m.name :: r.used, r.leftovers⟩

/-- A mention of an option gives it its value. -/
theorem given_of_mem (named : WellNamed specs) (ho : o ∈ specs) (hname : m.name = o.long)
    (options : α) : given specs options m = o.give options m.value? := by
  unfold given
  rw [hname, find?_long named.distinct ho]

namespace OptionSpec

/-- An option that takes nothing does not wait for a value. -/
theorem takesValue_of_flag (hkind : o.effect.kind = .flag) : o.takesValue = false := by
  unfold takesValue
  cases heffect : o.effect with
  | flag set => rfl
  | help => rfl
  | _ => rw [heffect] at hkind; cases hkind

/-- An option of the kind of a value takes one. -/
theorem takesValue_of_kind {value : Value} (hkind : o.effect.kind = value.kind) :
    o.takesValue = true := by
  unfold takesValue
  cases heffect : o.effect with
  | text set => rfl
  | integer set => rfl
  | _ => rw [heffect] at hkind; cases value <;> cases hkind

end OptionSpec

namespace Reading

variable (r : Reading α)

/-- An option that takes nothing is used with nothing. -/
theorem use_flag (hkind : o.effect.kind = .flag) :
    r.use ⟨o, []⟩ = .ok ⟨o.give r.options none, o.long :: r.used, r.leftovers⟩ := by
  unfold use OptionSpec.give
  cases heffect : o.effect with
  | flag set => rfl
  | _ => rw [heffect] at hkind; cases hkind

/-- An option that takes a value is used with it. -/
theorem use_value {value : Value} (hkind : o.effect.kind = value.kind)
    (hmark : value.spelling ≠ Given.mark) :
    r.use ⟨o, value.spelling⟩
      = .ok ⟨o.give r.options (some value), o.long :: r.used, r.leftovers⟩ := by
  have hgiven := Given.ofText_of_ne hmark
  unfold use OptionSpec.give
  cases value with
  | text t =>
    cases heffect : o.effect with
    | text set =>
      simp only [hgiven]
      rfl
    | _ => rw [heffect] at hkind; cases hkind
  | integer d =>
    cases heffect : o.effect with
    | integer set =>
      -- what is no mark is read as a numeral
      simp only [hgiven]
      simp only [Value.spelling, Text.readInt?_text]
    | _ => rw [heffect] at hkind; cases hkind

/-- Using one option is using it. -/
@[simp] theorem useAll_singleton (u : Use α) : r.useAll [u] = r.use u := by
  rw [useAll]
  cases r.use u with
  | error e => rfl
  | ok r' => rfl

end Reading

/-- **A mention is scanned as what it says.** -/
theorem scan_classified (named : WellNamed specs) (ho : o ∈ specs) (hname : m.name = o.long)
    (hkind : o.effect.kind = m.kind) (hput : m.WellPut) (r : Reading α)
    (rest : List (Argument α)) :
    scan specs r (m.classified o ++ rest) = scan specs (r.behind specs m) rest := by
  have hbehind : r.behind specs m = ⟨o.give r.options m.value?, o.long :: r.used, r.leftovers⟩ := by
    unfold Reading.behind
    rw [given_of_mem named ho hname, hname]
  rw [hbehind]
  cases m with
  | flag name =>
    show scan specs r (.option o .nothing :: rest) = _
    have hcluster : cluster specs o .nothing = .ok ⟨[⟨o, []⟩], none⟩ := by
      simp only [cluster, clusterAlone, OptionSpec.takesValue_of_flag hkind, Bool.false_eq_true,
        if_false]
    rw [scan, hcluster]
    simp only [Reading.useAll_singleton, r.use_flag hkind]
    rfl
  | joined name value =>
    have hvalue : o.effect.kind = value.kind := hkind
    show scan specs r (.option o (.equals value.spelling) :: rest) = _
    have hcluster : cluster specs o (.equals value.spelling)
        = .ok ⟨[⟨o, value.spelling⟩], none⟩ := by
      simp only [cluster, clusterEquals, OptionSpec.takesValue_of_kind hvalue, if_true]
    rw [scan, hcluster]
    simp only [Reading.useAll_singleton, r.use_value hvalue hput]
    rfl
  | apart name value =>
    have hvalue : o.effect.kind = value.kind := hkind
    have hmark : value.spelling ≠ Given.mark := fun heq => hput (by rw [heq]; rfl)
    show scan specs r (.option o .nothing :: .value value.spelling :: rest) = _
    have hcluster : cluster specs o .nothing = .ok ⟨[], some o⟩ := by
      simp only [cluster, clusterAlone, OptionSpec.takesValue_of_kind hvalue, if_true]
    rw [scan, hcluster]
    simp only [List.nil_append, Reading.useAll_singleton, r.use_value hvalue hmark]
    rfl

/-! ## Whole lines -/

/-- The readings behind a line: the options are given their values in order, and the
names are used. -/
theorem foldl_behind (line : List Mention) (r : Reading α) :
    line.foldl (Reading.behind specs) r
      = ⟨line.foldl (given specs) r.options, (line.map Mention.name).reverse ++ r.used,
        r.leftovers⟩ := by
  induction line generalizing r with
  | nil => rfl
  | cons m line ih =>
    rw [List.foldl_cons, ih]
    simp [Reading.behind]

/-- **A line of mentions is scanned as what it says**, whatever was read before. -/
theorem exists_classifyAll (named : WellNamed specs) {line : List Mention}
    (declared : ∀ m ∈ line, ∃ o ∈ specs, o.effect.kind = m.kind ∧ o.long = m.name)
    (wellPut : ∀ m ∈ line, m.WellPut) :
    ∃ as, classifyAll specs (line.flatMap Mention.arguments) = .ok as
      ∧ ∀ r, scan specs r as = .ok (line.foldl (Reading.behind specs) r) := by
  induction line with
  | nil => exact ⟨[], rfl, fun r => by rw [scan]; rfl⟩
  | cons m line ih =>
    rw [List.forall_mem_cons] at declared wellPut
    obtain ⟨as, has, hscan⟩ := ih declared.2 wellPut.2
    obtain ⟨o, ho, hkind, hname⟩ := declared.1
    refine ⟨m.classified o ++ as, ?_, fun r => ?_⟩
    · rw [List.flatMap_cons]
      exact classifyAll_arguments named ho hname.symm wellPut.1 has
    · rw [scan_classified named ho hname.symm hkind wellPut.1, hscan]
      rfl

/-- **Options that are mentioned are given what they are mentioned with**, one mention
after the other from the defaults on. -/
theorem parse_arguments (named : WellNamed specs) (defaults : α) {line : List Mention}
    (h : Mentions specs line) :
    parse specs defaults (line.flatMap Mention.arguments)
      = .ok (line.foldl (given specs) defaults) := by
  obtain ⟨as, has, hscan⟩ := exists_classifyAll named h.declared h.wellPut
  -- the names used are those mentioned, so nothing that has to be given is missing
  have hmissing : (specs.filter fun o => o.required
      && !((line.map Mention.name).reverse ++ ([] : List Text)).contains o.long) = [] := by
    rw [List.filter_eq_nil_iff]
    intro o ho
    by_cases hrequired : o.required = true
    · have hused := h.required o ho hrequired
      simpa using fun _ => hused
    · simp [hrequired]
  unfold parse
  simp only [has, hscan, foldl_behind, hmissing]
  rfl

/-- **A line of mentions is parsed as what it says**, if its meaning is that of
the line before the last mention with the value that this gives. -/
theorem parse_arguments_eq (named : WellNamed specs) {meaning : List Mention → α}
    (concat : ∀ line m, ∀ o ∈ specs, o.effect.kind = m.kind → o.long = m.name →
      meaning (line ++ [m]) = o.give (meaning line) m.value?)
    {line : List Mention} (h : Mentions specs line) :
    parse specs (meaning []) (line.flatMap Mention.arguments) = .ok (meaning line) := by
  have hmeaning : ∀ line : List Mention,
      (∀ m ∈ line, ∃ o ∈ specs, o.effect.kind = m.kind ∧ o.long = m.name) →
      line.foldl (given specs) (meaning []) = meaning line := by
    intro line declared
    induction line using List.reverseRecOn with
    | nil => rfl
    | append_singleton line m ih =>
      obtain ⟨o, ho, hkind, hname⟩ := declared m (by simp)
      rw [List.foldl_concat, ih fun m' hm' => declared m' (List.mem_append_left _ hm'),
        given_of_mem named ho hname.symm, concat line m o ho hkind hname]
  rw [parse_arguments named (meaning []) h, hmeaning line h.declared]

end SentenceForge.CommandLine

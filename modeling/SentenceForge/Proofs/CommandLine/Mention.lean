import Mathlib.Tactic.MkIffOfInductiveProp
import SentenceForge.CommandLine.Arguments
import SentenceForge.Proofs.Text.Numeral

/-!
# Options mentioned in full

Arguments leave much room: a name may be cut short, letters may be joined, and whether an
argument is a value may depend on all that is declared. A **mention** leaves none. It has
the full name of an option, and the value behind an equals sign or in the next argument.

A line of mentions says what it comes to: an option has the value of its last mention, or
its default if it is not mentioned. So mentions of different options may change places,
and only the order of those of one option counts (`SameOrder`).

A value may be anything but the mark `--`, and one that is an argument by itself may not
begin with a dash, since it would be looked for among the names.
-/

namespace SentenceForge.CommandLine

/-! ## Mentions -/

/-- What options take, apart from what they do with it. -/
inductive Kind where
  /-- Nothing. -/
  | flag
  /-- A text. -/
  | text
  /-- An integer. -/
  | integer
  /-- Nothing, and the program ends. -/
  | help
  deriving DecidableEq, Repr

/-- The kind of an effect. -/
def Effect.kind {α : Type} : Effect α → Kind
  | .flag _ => .flag
  | .text _ => .text
  | .integer _ => .integer
  | .help => .help

/-- **A value** for an option, as it is written. -/
inductive Value where
  /-- A text. -/
  | text (t : Text)
  /-- An integer in digits. -/
  | integer (d : Text.Decimal)

namespace Value

/-- The value as written. -/
def spelling : Value → Text
  | .text t => t
  | .integer d => d.text

/-- The kind of option that takes it. -/
def kind : Value → Kind
  | .text _ => .text
  | .integer _ => .integer

/-- The text, if it is one. -/
@[simp] def text? : Value → Option Text
  | .text t => some t
  | .integer _ => none

/-- The integer, if it is one. -/
@[simp] def integer? : Value → Option Int
  | .text _ => none
  | .integer d => some d.value

end Value

/-- **A mention of an option** by its long name. -/
inductive Mention where
  /-- The name alone. -/
  | flag (name : Text)
  /-- The name and a value joined by an equals sign. -/
  | joined (name : Text) (value : Value)
  /-- The name, and a value as the next argument. -/
  | apart (name : Text) (value : Value)

namespace Mention

/-- The name of the option. -/
def name : Mention → Text
  | .flag name => name
  | .joined name _ => name
  | .apart name _ => name

/-- The value, if there is one. -/
def value? : Mention → Option Value
  | .flag _ => none
  | .joined _ value => some value
  | .apart _ value => some value

/-- The kind of option that is mentioned so. -/
def kind (m : Mention) : Kind := (m.value?.map Value.kind).getD .flag

/-- **The kind of a mention is that of its value.** -/
theorem kind_cases (m : Mention) :
    (m.kind = .flag ∧ m.value? = none)
      ∨ (∃ t, m.kind = .text ∧ m.value? = some (.text t))
      ∨ ∃ d, m.kind = .integer ∧ m.value? = some (.integer d) := by
  unfold kind
  cases m.value? with
  | none => exact .inl ⟨rfl, rfl⟩
  | some value =>
    cases value with
    | text t => exact .inr (.inl ⟨t, rfl, rfl⟩)
    | integer d => exact .inr (.inr ⟨d, rfl, rfl⟩)

/-- A mention of an option that takes nothing has no value. -/
theorem value?_of_flag {m : Mention} (h : m.kind = .flag) : m.value? = none := by
  simpa [h] using m.kind_cases

/-- A mention of an option that takes a text has one. -/
theorem exists_text_of_kind {m : Mention} (h : m.kind = .text) :
    ∃ t, m.value? = some (.text t) := by
  simpa [h] using m.kind_cases

/-- A mention of an option that takes an integer has one. -/
theorem exists_integer_of_kind {m : Mention} (h : m.kind = .integer) :
    ∃ d, m.value? = some (.integer d) := by
  simpa [h] using m.kind_cases

/-- No mention asks for the usage. -/
theorem kind_ne_help (m : Mention) : m.kind ≠ .help := by
  intro h
  simpa [h] using m.kind_cases

/-- **The arguments of a mention.** -/
def arguments : Mention → List Text
  | .flag name => [name]
  | .joined name value => [name ++ '=' :: value.spelling]
  | .apart name value => [name, value.spelling]

/-- **A value may stand where it does**: it is not the mark, and if it is an argument by
itself it does not begin with a dash. -/
def WellPut : Mention → Prop
  | .flag _ => True
  | .joined _ value => value.spelling ≠ Given.mark
  | .apart _ value => value.spelling.head? ≠ some '-'

instance : DecidablePred WellPut := fun m =>
  match m with
  | .flag _ => inferInstanceAs (Decidable True)
  | .joined _ _ => inferInstanceAs (Decidable (_ ≠ _))
  | .apart _ _ => inferInstanceAs (Decidable (_ ≠ _))

/-- What a mention gives the option of a name, as it is read. -/
def valueOf {β : Type} (read : Value → Option β) (name : Text) (m : Mention) : Option β :=
  if m.name = name then m.value?.bind read else none

end Mention

/-! ## Lines of mentions -/

/-- **A line mentions declared options**, each with a value of its kind or without one,
and leaves out none that has to be given. -/
@[mk_iff]
structure Mentions {α : Type} (specs : List (OptionSpec α)) (line : List Mention) : Prop where
  /-- A mention is one of an option of its kind. -/
  declared : ∀ m ∈ line, ∃ o ∈ specs, o.effect.kind = m.kind ∧ o.long = m.name
  /-- The values may stand where they do. -/
  wellPut : ∀ m ∈ line, m.WellPut
  /-- What has to be given is mentioned. -/
  required : ∀ o ∈ specs, o.required = true → ∃ m ∈ line, m.name = o.long

instance {α : Type} (specs : List (OptionSpec α)) : DecidablePred (Mentions specs) :=
  fun line => decidable_of_iff' _ (mentions_iff specs line)

/-- What the last mention of a name gives, as it is read. -/
def lastValue {β : Type} (read : Value → Option β) (name : Text) (line : List Mention) :
    Option β :=
  (line.filterMap (Mention.valueOf read name)).getLast?

/-- The text that the last mention of a name gives. -/
abbrev lastText (name : Text) (line : List Mention) : Option Text :=
  lastValue Value.text? name line

/-- The integer that the last mention of a name gives. -/
abbrev lastInteger (name : Text) (line : List Mention) : Option Int :=
  lastValue Value.integer? name line

/-- Whether a name is mentioned. -/
def mentioned (name : Text) (line : List Mention) : Bool := line.any (·.name = name)

/-- **Two lines have the same order of mentions** of each name. -/
def SameOrder (line line' : List Mention) : Prop :=
  ∀ name, line.filter (·.name = name) = line'.filter (·.name = name)

section Lines

variable {β : Type} {line line' : List Mention}

/-- One more mention gives its value, and otherwise the value is the one before. -/
@[simp] theorem lastValue_concat (read : Value → Option β) (name : Text) (line : List Mention)
    (m : Mention) :
    lastValue read name (line ++ [m]) = (m.valueOf read name).or (lastValue read name line) := by
  unfold lastValue
  rw [List.filterMap_append, List.getLast?_append]
  cases h : m.valueOf read name <;> simp [h]

/-- One more mention is mentioned too. -/
@[simp] theorem mentioned_concat (name : Text) (line : List Mention) (m : Mention) :
    mentioned name (line ++ [m]) = (mentioned name line || decide (m.name = name)) := by
  simp [mentioned]

/-- **Mentions of different options may change places.** -/
theorem sameOrder_swap {m m' : Mention} (hne : m.name ≠ m'.name) (before rest : List Mention) :
    SameOrder (before ++ m :: m' :: rest) (before ++ m' :: m :: rest) := by
  intro name
  rw [List.filter_append, List.filter_append]
  congr 1
  by_cases hm : m.name = name
  · have hm' : m'.name ≠ name := fun heq => hne (hm.trans heq.symm)
    simp [hm, hm']
  · simp [List.filter_cons, hm]

/-- **Lines with the same order have the same last values**, as those of a name depend on
its mentions alone. -/
theorem SameOrder.lastValue_eq (h : SameOrder line line') (read : Value → Option β)
    (name : Text) : lastValue read name line = lastValue read name line' := by
  have hfilter : ∀ l : List Mention, (l.filter (·.name = name)).filterMap
      (Mention.valueOf read name) = l.filterMap (Mention.valueOf read name) := by
    intro l
    rw [List.filterMap_filter]
    refine List.filterMap_congr fun m _ => ?_
    by_cases hm : m.name = name <;> simp [Mention.valueOf, hm]
  unfold lastValue
  rw [← hfilter line, h name, hfilter line']

/-- Lines with the same order have the same mentions. -/
theorem SameOrder.mem_iff (h : SameOrder line line') (m : Mention) : m ∈ line ↔ m ∈ line' := by
  have hfilter : ∀ l : List Mention, m ∈ l ↔ m ∈ l.filter (·.name = m.name) := by
    intro l
    simp
  rw [hfilter line, h m.name, ← hfilter line']

/-- Lines with the same order mention the same names. -/
theorem SameOrder.mentioned_eq (h : SameOrder line line') (name : Text) :
    mentioned name line = mentioned name line' := by
  unfold mentioned
  rw [Bool.eq_iff_iff, List.any_eq_true, List.any_eq_true]
  simp only [h.mem_iff]

/-- A line with the same order mentions options as well. -/
theorem Mentions.of_sameOrder {α : Type} {specs : List (OptionSpec α)} (h : Mentions specs line)
    (hsame : SameOrder line line') : Mentions specs line' where
  declared m hm := h.declared m ((hsame.mem_iff m).2 hm)
  wellPut m hm := h.wellPut m ((hsame.mem_iff m).2 hm)
  required o ho hrequired := by
    obtain ⟨m, hm, hname⟩ := h.required o ho hrequired
    exact ⟨m, (hsame.mem_iff m).1 hm, hname⟩

end Lines

end SentenceForge.CommandLine

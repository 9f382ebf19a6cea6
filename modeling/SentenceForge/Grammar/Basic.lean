import SentenceForge.Table
import SentenceForge.Text.CaseFolding

/-!
# Grammars

A grammar is a list of productions and a name to start from. A production
has a name and a body, and the body is a list of symbols: terminals,
which are said, and references, which are expanded. Whether a token is a
reference is a matter of its first and last character alone.

Names are compared by their case foldings. The alternatives of a name are
its productions, and since an expansion asks for them at every step, the
grammar keeps them in a table by folded name. The table is determined by
the productions, and the structure carries the proof: two grammars with
the same start and the same productions are the same grammar.
-/

namespace SentenceForge

/-! ## Symbols -/

/-- Whether a token refers to a name: it opens with `<` and closes with a
`>` of its own. What stands between is free. -/
def isReference (token : Text) : Bool :=
  2 ≤ token.length && token.head? == some '<' && token.getLast? == some '>'

/-- **A symbol** of a production's body, as written. -/
inductive Symbol where
  /-- A token that is said. -/
  | terminal (token : Text)
  /-- A name that is expanded. -/
  | reference (name : Text)
  deriving DecidableEq, Repr

namespace Symbol

/-- The symbol that a token is. -/
def ofToken (token : Text) : Symbol :=
  if isReference token then .reference token else .terminal token

/-- The token as written. -/
def token : Symbol → Text
  | .terminal t => t
  | .reference n => n

/-- Reading a token as a symbol loses nothing. -/
@[simp] theorem token_ofToken (t : Text) : (ofToken t).token = t := by
  unfold ofToken
  split <;> rfl

end Symbol

/-! ## Productions -/

/-- **A production**: a name, as written where it was defined, and one
way to expand it. -/
structure Production where
  /-- The name as written. -/
  name : Text
  /-- The symbols it expands to. -/
  body : List Symbol
  deriving DecidableEq, Repr

namespace Production

/-- The tokens of the body, as written. -/
def tokens (p : Production) : List Text := p.body.map Symbol.token

/-- The names that the body refers to, in order, as written. -/
def references (p : Production) : List Text :=
  p.body.filterMap fun
    | .terminal _ => none
    | .reference n => some n

/-- The production that a name has with a body written as text. -/
def ofText (name body : Text) : Production :=
  ⟨name, (Text.words body).map Symbol.ofToken⟩

/-- The tokens of a body written as text are its words. -/
@[simp] theorem tokens_ofText (name body : Text) :
    (ofText name body).tokens = Text.words body := by
  simp [ofText, tokens, Function.comp_def]

/-- A name is referred to if it is a reference of the body. -/
@[simp] theorem mem_references (p : Production) (n : Text) :
    n ∈ p.references ↔ Symbol.reference n ∈ p.body := by
  simp only [references, List.mem_filterMap]
  constructor
  · rintro ⟨x, hx, h⟩
    cases x with
    | terminal t => simp at h
    | reference m =>
      injection h with h
      exact h ▸ hx
  · intro h
    exact ⟨_, h, rfl⟩

end Production

/-- The productions by folded name. -/
abbrev Index := Table Text (List Production)

/-- The index of a list of productions: each under its folded name, in
order. -/
def Index.ofList (ps : List Production) : Index :=
  Table.group (fun p => Text.fold p.name) id ps

/-! ## Grammars -/

/-- **A grammar.** -/
structure Grammar where
  /-- The name that sentences start from, as written. -/
  start : Text
  /-- The productions in order. -/
  productions : List Production
  /-- The productions by folded name. -/
  index : Index := Index.ofList productions
  /-- The index is that of the productions. -/
  index_eq : index = Index.ofList productions := by rfl

namespace Grammar

/-- The grammar with a start and productions. -/
def ofProductions (start : Text) (productions : List Production) : Grammar :=
  { start, productions }

/-- The alternatives of a name: the productions whose names have the same
case folding. -/
def alternatives (g : Grammar) (name : Text) : List Production :=
  (g.index.get? (Text.fold name)).getD []

/-- Whether the grammar has productions for a name. -/
def defines (g : Grammar) (name : Text) : Bool :=
  g.index.has (Text.fold name)

/-- The bodies by name as written, names in order of first occurrence. -/
def tokenLists (g : Grammar) : Table Text (List (List Text)) :=
  Table.group Production.name Production.tokens g.productions

/-- **The alternatives of a name are those productions whose names have
the same case folding**, in order. -/
theorem alternatives_eq_filter (g : Grammar) (name : Text) :
    g.alternatives name
      = g.productions.filter (Text.fold ·.name = Text.fold name) := by
  rw [alternatives, g.index_eq, Index.ofList, Table.getD_get?_group,
    List.map_id]

/-- **A name is defined if it has alternatives.** -/
theorem defines_iff (g : Grammar) (name : Text) :
    g.defines name = true ↔ g.alternatives name ≠ [] := by
  rw [defines, g.index_eq, Index.ofList, Table.has_group,
    alternatives_eq_filter]
  simp

/-- Names with the same case folding have the same alternatives. -/
theorem alternatives_congr (g : Grammar) {m n : Text}
    (h : Text.fold m = Text.fold n) :
    g.alternatives m = g.alternatives n := by
  simp [alternatives, h]

end Grammar

end SentenceForge

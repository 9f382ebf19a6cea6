import SentenceForge.Grammar.Reachability
import SentenceForge.Random.Source

/-!
# Derivation trees

A derivation of a name says, without a source and without a limit, what an
expansion of it can be: a bare leaf if the name has no alternatives, and
otherwise one of the alternatives with a derivation of each reference of
its body, in order. The type carries its grammar and its name, so there is
no tree that is not a derivation and no separate check.

What an expansion leaves behind is read off the tree: its terminals from
left to right, and in preorder the choices made and the names passed over.
The height counts names, bare leaves among them.

A name has a derivation exactly if it is productive
(`nonempty_derivation_iff`).
-/

namespace SentenceForge

mutual

/-- **A derivation of a name.** -/
inductive Derivation (g : Grammar) : Text → Type where
  /-- A name without alternatives. -/
  | leaf (name : Text) (undefined : g.alternatives name = []) :
      Derivation g name
  /-- A name with one of its alternatives. -/
  | node (name : Text) (choice : Fin (g.alternatives name).length)
      (body : BodyDerivation g ((g.alternatives name).get choice).body) :
      Derivation g name

/-- **A derivation of a body**: one of each of its references. -/
inductive BodyDerivation (g : Grammar) : List Symbol → Type where
  /-- Nothing is derived. -/
  | done : BodyDerivation g []
  /-- A terminal stands for itself. -/
  | terminal (token : Text) {body : List Symbol}
      (rest : BodyDerivation g body) :
      BodyDerivation g (.terminal token :: body)
  /-- A reference has a derivation. -/
  | reference (name : Text) {body : List Symbol}
      (here : Derivation g name) (rest : BodyDerivation g body) :
      BodyDerivation g (.reference name :: body)

end

/-! ## What a derivation says -/

mutual

/-- **The terminals** of a derivation, from left to right. -/
def Derivation.terminals {g : Grammar} {name : Text} :
    Derivation g name → List Text
  | .leaf _ _ => []
  | .node _ _ body => body.terminals

/-- The terminals of a body's derivation. -/
def BodyDerivation.terminals {g : Grammar} {body : List Symbol} :
    BodyDerivation g body → List Text
  | .done => []
  | .terminal token rest => token :: rest.terminals
  | .reference _ here rest => here.terminals ++ rest.terminals

end

mutual

/-- **The height** of a derivation: the names on its longest path. -/
def Derivation.height {g : Grammar} {name : Text} :
    Derivation g name → Nat
  | .leaf _ _ => 1
  | .node _ _ body => body.height + 1

/-- The height of a body's derivation, which is zero without
references. -/
def BodyDerivation.height {g : Grammar} {body : List Symbol} :
    BodyDerivation g body → Nat
  | .done => 0
  | .terminal _ rest => rest.height
  | .reference _ here rest => max here.height rest.height

end

mutual

/-- **The choices** of a derivation, in preorder. -/
def Derivation.choices {g : Grammar} {name : Text} :
    Derivation g name → List Choice
  | .leaf _ _ => []
  | .node name choice body =>
    ⟨(g.alternatives name).length, choice⟩ :: body.choices

/-- The choices of a body's derivation. -/
def BodyDerivation.choices {g : Grammar} {body : List Symbol} :
    BodyDerivation g body → List Choice
  | .done => []
  | .terminal _ rest => rest.choices
  | .reference _ here rest => here.choices ++ rest.choices

end

mutual

/-- **The bare leaves** of a derivation, in preorder. -/
def Derivation.leaves {g : Grammar} {name : Text} :
    Derivation g name → List Text
  | .leaf name _ => [name]
  | .node _ _ body => body.leaves

/-- The bare leaves of a body's derivation. -/
def BodyDerivation.leaves {g : Grammar} {body : List Symbol} :
    BodyDerivation g body → List Text
  | .done => []
  | .terminal _ rest => rest.leaves
  | .reference _ here rest => here.leaves ++ rest.leaves

end

/-- A derivation has at least one name on its path. -/
theorem Derivation.height_pos {g : Grammar} {name : Text}
    (d : Derivation g name) : 0 < d.height := by
  cases d <;> simp [height]

/-! ## Which names have one -/

mutual

/-- A name with a derivation is productive. -/
theorem Derivation.productive {g : Grammar} {name : Text} :
    Derivation g name → g.Productive name
  | .leaf _ undefined => .undefined undefined
  | .node name choice body =>
    .alternative ((g.alternatives name).get choice) (List.get_mem _ _)
      fun r hr => body.productive r ((Production.mem_references _ r).1 hr)

/-- The references of a body with a derivation are productive. -/
theorem BodyDerivation.productive {g : Grammar} {body : List Symbol} :
    BodyDerivation g body → ∀ r, Symbol.reference r ∈ body → g.Productive r
  | .done, _, h => absurd h List.not_mem_nil
  | .terminal _ rest, r, h =>
    rest.productive r ((List.mem_cons.1 h).resolve_left Symbol.noConfusion)
  | .reference name here rest, r, h =>
    match List.mem_cons.1 h with
    | .inl e => Symbol.reference.inj e ▸ here.productive
    | .inr m => rest.productive r m

end

/-- A body whose references have derivations has one. -/
theorem nonempty_bodyDerivation {g : Grammar} {body : List Symbol}
    (h : ∀ r, Symbol.reference r ∈ body → Nonempty (Derivation g r)) :
    Nonempty (BodyDerivation g body) := by
  induction body with
  | nil => exact ⟨.done⟩
  | cons x body ih =>
    obtain ⟨rest⟩ := ih fun r m => h r (List.mem_cons_of_mem x m)
    cases x with
    | terminal t => exact ⟨.terminal t rest⟩
    | reference n =>
      obtain ⟨here⟩ := h n List.mem_cons_self
      exact ⟨.reference n here rest⟩

/-- **A name has a derivation exactly if it is productive.** -/
theorem nonempty_derivation_iff (g : Grammar) (name : Text) :
    Nonempty (Derivation g name) ↔ g.Productive name := by
  constructor
  · rintro ⟨d⟩
    exact d.productive
  · intro h
    induction h with
    | undefined none => exact ⟨.leaf _ none⟩
    | @alternative n p mem _ ih =>
      obtain ⟨i, hi⟩ := List.get_of_mem mem
      obtain ⟨body⟩ : Nonempty
          (BodyDerivation g ((g.alternatives n).get i).body) :=
        nonempty_bodyDerivation fun r hr =>
          ih r ((Production.mem_references p r).2 (hi ▸ hr))
      exact ⟨.node n i body⟩

end SentenceForge

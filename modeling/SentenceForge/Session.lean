import SentenceForge.Random.Chooser
import SentenceForge.Sentence.Basic

/-!
# Sessions

A session keeps grammars under names of its own, its slots, and one
chooser that all expansions draw from in turn. A step that fails leaves
the grammars as they were; the choices it made before it failed stay made,
so the steps after it draw what they would have drawn anyway.
-/

namespace SentenceForge

/-- **What a session keeps.** -/
structure Session where
  /-- The grammars by slot. -/
  grammars : Table Text Grammar
  /-- What all choices are drawn from. -/
  chooser : Random.Chooser

/-- A step of a session. -/
inductive SessionStep where
  /-- Read a text and keep its grammar. -/
  | load (slot text : Text)
  /-- Build a grammar from entries and keep it. -/
  | build (slot : Text) (entries : List Entry)
  /-- Expand a name of a grammar. -/
  | expand (slot name : Text) (settings : Settings)
  /-- Make a sentence of a grammar. -/
  | sentence (slot : Text) (settings : Settings)
  /-- Make a sentence of a text, keeping nothing. -/
  | generate (text : Text) (settings : Settings)
  /-- Look a name up in a grammar. -/
  | lookUp (slot name : Text)
  /-- Draw from another chooser from here on. -/
  | choose (chooser : Random.Chooser)

/-- What a step shows. -/
inductive Shown where
  /-- The grammar that was kept. -/
  | grammar (g : Grammar)
  /-- A text that was made. -/
  | text (t : Text)
  /-- A name, and the grammar it was looked up in. -/
  | entry (g : Grammar) (name : Text)
  /-- Nothing. -/
  | nothing

/-- Why a step failed. -/
inductive StepError where
  /-- Nothing was ever kept in the slot. -/
  | emptySlot (slot : Text)
  /-- The step itself failed. -/
  | failed (error : Error)

/-- **The answer to a step.** -/
structure Answer where
  /-- The notices of the step. -/
  notices : List Notice
  /-- The choices of the step. -/
  choices : List Choice
  /-- What the step shows, or why it failed. -/
  result : Except StepError Shown

namespace Session

/-- The session after a grammar was made, which is kept in a slot. -/
def keep (x : Session) (slot : Text) (made : Logged Grammar) :
    Session × Answer :=
  match made.result with
  | .error e => (x, ⟨made.notices, [], .error (.failed e)⟩)
  | .ok g =>
    (⟨x.grammars.put slot g, x.chooser⟩, ⟨made.notices, [], .ok (.grammar g)⟩)

/-- The session after a text was made. -/
def present (x : Session) (made : Generation Random.Chooser Text) :
    Session × Answer :=
  (⟨x.grammars, made.source⟩,
    ⟨made.notices, made.choices,
      (made.result.mapError StepError.failed).map Shown.text⟩)

/-- What is done with the grammar in a slot, if there is one. -/
def withGrammar (x : Session) (slot : Text)
    (f : Grammar → Session × Answer) : Session × Answer :=
  match x.grammars.get? slot with
  | none => (x, ⟨[], [], .error (.emptySlot slot)⟩)
  | some g => f g

/-- **One step**: the session after it, and its answer. -/
def step (x : Session) : SessionStep → Session × Answer
  | .load slot text => x.keep slot (Grammar.ofText text)
  | .build slot entries => x.keep slot (Grammar.ofEntries entries)
  | .expand slot name settings =>
    x.withGrammar slot fun g =>
      x.present (g.expand Random.Chooser.source settings name x.chooser)
  | .sentence slot settings =>
    x.withGrammar slot fun g =>
      x.present (g.sentence Random.Chooser.source settings x.chooser)
  | .generate text settings =>
    x.present (sentenceOfText text Random.Chooser.source settings x.chooser)
  | .lookUp slot name =>
    x.withGrammar slot fun g => (x, ⟨[], [], .ok (.entry g name)⟩)
  | .choose chooser => (⟨x.grammars, chooser⟩, ⟨[], [], .ok .nothing⟩)

/-- **The answers to steps in order.** -/
def run (x : Session) : List SessionStep → List Answer
  | [] => []
  | s :: steps =>
    let (x', answer) := x.step s
    answer :: run x' steps

end Session

end SentenceForge

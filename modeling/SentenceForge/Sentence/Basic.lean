import SentenceForge.Expansion
import SentenceForge.Sentence.Punctuation

/-!
# Sentences

A sentence of a grammar is the expansion of its start with the punctuation
fixed and the blanks at the ends trimmed. A text is read as a grammar
first, and must define the start: an expansion from an undefined start
would be the empty sentence, and that is never meant.
-/

namespace SentenceForge

/-- The sentence of a raw text. -/
def sentenceOfRaw (raw : Text) : Text := Text.trim (Punctuation.fix raw)

namespace Grammar

variable {σ : Type}

/-- **One sentence of a grammar.** -/
def sentence (g : Grammar) (source : Source σ) (settings : Settings)
    (s : σ) : Generation σ Text :=
  (g.expand source settings g.start s).map sentenceOfRaw

/-- The grammar that a text writes, if it defines the start. -/
def startable (text : Text) : Logged Grammar :=
  (ofText text).andThen fun g =>
    if g.defines startName then .ok g
    else .fail (.grammar (.noStart startName))

end Grammar

/-- **One sentence of the grammar that a text writes.** -/
def sentenceOfText {σ : Type} (text : Text) (source : Source σ)
    (settings : Settings) (s : σ) : Generation σ Text :=
  Generation.ofLogged (Grammar.startable text) s fun g =>
    g.sentence source settings s

end SentenceForge

import SentenceForge.CommandLine.Arguments
import SentenceForge.CommandLine.Given
import SentenceForge.Corpus
import SentenceForge.Derivation
import SentenceForge.Error
import SentenceForge.Expansion
import SentenceForge.Fault
import SentenceForge.Files.GrammarFile
import SentenceForge.Files.Path
import SentenceForge.Files.Tree
import SentenceForge.Grammar.Basic
import SentenceForge.Grammar.Block
import SentenceForge.Grammar.Builder
import SentenceForge.Grammar.Definition
import SentenceForge.Grammar.Printer
import SentenceForge.Grammar.Reachability
import SentenceForge.Main
import SentenceForge.Notice
import SentenceForge.Program.CorpusBuilder
import SentenceForge.Program.Screen
import SentenceForge.Program.Sentences
import SentenceForge.Random.Chooser
import SentenceForge.Random.Source
import SentenceForge.Random.Twister
import SentenceForge.Sentence.Basic
import SentenceForge.Sentence.Punctuation
import SentenceForge.Sentence.Spacing
import SentenceForge.Session
import SentenceForge.Table
import SentenceForge.Text.Blank
import SentenceForge.Text.CaseFolding
import SentenceForge.Text.CaseFolding.Table
import SentenceForge.Text.LineEnds
import SentenceForge.Text.Numeral
import SentenceForge.Text.Printable.Table
import SentenceForge.Text.Quoted
import SentenceForge.Text.Substitution
import SentenceForge.Text.Utf8
import SentenceForge.Proofs.Text.Words
import SentenceForge.Proofs.Text.Plain
import SentenceForge.Proofs.Text.Respaced
import SentenceForge.Proofs.Text.Substitution
import SentenceForge.Proofs.Text.CaseFolding
import SentenceForge.Proofs.Text.Numeral
import SentenceForge.Proofs.Table
import SentenceForge.Proofs.Expansion.Run
import SentenceForge.Proofs.Expansion.Derivation
import SentenceForge.Proofs.Grammar.Built
import SentenceForge.Proofs.Grammar.Definition
import SentenceForge.Proofs.Grammar.Spelling
import SentenceForge.Proofs.Expansion.Spelling
import SentenceForge.Proofs.Grammar.Layout
import SentenceForge.Proofs.Grammar.Prose
import SentenceForge.Proofs.Grammar.Canonical
import SentenceForge.Proofs.Grammar.Dissection
import SentenceForge.Proofs.Sentence.Outcome
import SentenceForge.Proofs.Sentence.Punctuation
import SentenceForge.Proofs.Sentence.Shape
import SentenceForge.Proofs.Expansion.Strict
import SentenceForge.Proofs.Expansion.Depth
import SentenceForge.Proofs.Grammar.Reachability
import SentenceForge.Proofs.Expansion.Cycle
import SentenceForge.Proofs.Expansion.Productive
import SentenceForge.Proofs.Expansion.Work
import SentenceForge.Proofs.Expansion.Locality
import SentenceForge.Proofs.Files.Tree
import SentenceForge.Proofs.Files.GrammarPath
import SentenceForge.Proofs.CommandLine.Mention
import SentenceForge.Proofs.CommandLine.Parsing
import SentenceForge.Proofs.Program.Options
import SentenceForge.Proofs.Program.Agreement
import SentenceForge.Proofs.Corpus.Effect
import SentenceForge.Proofs.Corpus.Size
import SentenceForge.Proofs.Program.Survival
import SentenceForge.Proofs.Sentence.Refixed
import SentenceForge.Proofs.Sentence.Deletion
import SentenceForge.Proofs.Expansion.Replay
import SentenceForge.Proofs.Grammar.Reordering
import SentenceForge.Proofs.Grammar.Redefinition
import SentenceForge.Proofs.Program.Conversation
import SentenceForge.Proofs.Grammar.Referring
import SentenceForge.Proofs.Grammar.Splitting
import SentenceForge.Proofs.Grammar.Indexing

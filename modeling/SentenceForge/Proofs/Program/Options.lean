import SentenceForge.Program.CorpusBuilder
import SentenceForge.Program.Sentences
import SentenceForge.Proofs.CommandLine.Parsing

/-!
# The options that a command line spells

Both programs leave the reading of their arguments to one parser and declare what they
take. If each argument belongs to a mention of an option by its full name, the program
gets what the line says: for each option the value of its last mention, or its default
(`ofArguments_of_mentions`). The names overlap – `--grammar` begins `--grammar_dir` – and
nothing comes of it.

The parser gives the options their values one mention after the other. That the last one
counts is seen from the end of a line: one more mention changes the value of its own
option and of no other (`ofMentions_concat`).
-/

namespace SentenceForge

open CommandLine

/-! ## The sentence program -/

namespace Sentences.Options

/-- **The options that a line of mentions says.** -/
def ofMentions (line : List Mention) : Options where
  grammar := (lastText "--grammar".toList line).map .value
  size := .value ((lastInteger "--n_sentences".toList line).getD 1)
  directory := .value ((lastText "--grammar_dir".toList line).getD grammarDirectory)
  seed := (lastInteger "--seed".toList line).map .value
  strict := mentioned "--strict".toList line
  maxDepth := .value ((lastInteger "--max_depth".toList line).getD 200)
  verbose := mentioned "--verbose".toList line

/-- The options of the program are well named. -/
theorem wellNamed_specs : WellNamed specs := by decide

/-- **One more mention gives its option its value**, and changes no other. -/
theorem ofMentions_concat (line : List Mention) (m : Mention) :
    ∀ o ∈ specs, o.effect.kind = m.kind → o.long = m.name →
      ofMentions (line ++ [m]) = o.give (ofMentions line) m.value? := by
  -- by what the option takes, since a mention of it has a value of that kind
  simp only [specs, List.forall_mem_cons]
  refine ⟨?help, ?grammar, ?size, ?directory, ?seed, ?strict, ?maxDepth, ?verbose, nofun⟩
  case help => exact fun hkind => absurd hkind.symm m.kind_ne_help
  case grammar | directory =>
    intro hkind hname
    obtain ⟨t, ht⟩ := Mention.exists_text_of_kind hkind.symm
    simp [ofMentions, Mention.valueOf, OptionSpec.give, ← hname, ht]
  case size | seed | maxDepth =>
    intro hkind hname
    obtain ⟨d, hd⟩ := Mention.exists_integer_of_kind hkind.symm
    simp [ofMentions, Mention.valueOf, OptionSpec.give, ← hname, hd]
  case strict | verbose =>
    intro hkind hname
    have hnone := Mention.value?_of_flag hkind.symm
    simp [ofMentions, Mention.valueOf, OptionSpec.give, ← hname, hnone]

/-- **A line of mentions is read as what it says.** -/
theorem ofArguments_arguments {line : List Mention} (h : Mentions specs line) :
    ofArguments (line.flatMap Mention.arguments) = .ok (ofMentions line) :=
  parse_arguments_eq wellNamed_specs ofMentions_concat h

/-- What lines say depends on the order of the mentions of each option. -/
theorem ofMentions_congr {line line' : List Mention} (h : SameOrder line line') :
    ofMentions line = ofMentions line' := by
  unfold ofMentions
  simp only [h.lastValue_eq, h.mentioned_eq]

end Sentences.Options

/-! ## The corpus program -/

namespace CorpusBuilder.Options

/-- **The options that a line of mentions says.** -/
def ofMentions (line : List Mention) : Options where
  grammar := .value ((lastText "--grammar".toList line).getD [])
  directory := .value ((lastText "--grammar_dir".toList line).getD grammarDirectory)
  path := .value ((lastText "--res_path".toList line).getD defaultCorpusPath)
  size := .value ((lastInteger "--n_sentences".toList line).getD defaultCorpusSize)
  seed := (lastInteger "--seed".toList line).map .value
  maxDepth := .value ((lastInteger "--max_depth".toList line).getD 200)

/-- The options of the program are well named. -/
theorem wellNamed_specs : WellNamed specs := by decide

/-- **One more mention gives its option its value**, and changes no other. -/
theorem ofMentions_concat (line : List Mention) (m : Mention) :
    ∀ o ∈ specs, o.effect.kind = m.kind → o.long = m.name →
      ofMentions (line ++ [m]) = o.give (ofMentions line) m.value? := by
  simp only [specs, List.forall_mem_cons]
  refine ⟨?help, ?grammar, ?directory, ?path, ?size, ?seed, ?maxDepth, nofun⟩
  case help => exact fun hkind => absurd hkind.symm m.kind_ne_help
  case grammar | directory | path =>
    intro hkind hname
    obtain ⟨t, ht⟩ := Mention.exists_text_of_kind hkind.symm
    simp [ofMentions, Mention.valueOf, OptionSpec.give, ← hname, ht]
  case size | seed | maxDepth =>
    intro hkind hname
    obtain ⟨d, hd⟩ := Mention.exists_integer_of_kind hkind.symm
    simp [ofMentions, Mention.valueOf, OptionSpec.give, ← hname, hd]

/-- **A line of mentions is read as what it says.** -/
theorem ofArguments_arguments {line : List Mention} (h : Mentions specs line) :
    ofArguments (line.flatMap Mention.arguments) = .ok (ofMentions line) :=
  parse_arguments_eq wellNamed_specs ofMentions_concat h

/-- What lines say depends on the order of the mentions of each option. -/
theorem ofMentions_congr {line line' : List Mention} (h : SameOrder line line') :
    ofMentions line = ofMentions line' := by
  unfold ofMentions
  simp only [h.lastValue_eq]

end CorpusBuilder.Options

/-! ## Both programs -/

/-- **Arguments that mention options are read as what they say**, by both programs: an
option has the value of its last mention, or its default. So only the order of the
mentions of one option counts. -/
theorem ofArguments_of_mentions :
    (∀ line, Mentions Sentences.Options.specs line →
      Sentences.Options.ofArguments (line.flatMap Mention.arguments)
          = .ok (Sentences.Options.ofMentions line)
        ∧ ∀ line', SameOrder line line' →
          Sentences.Options.ofArguments (line'.flatMap Mention.arguments)
            = Sentences.Options.ofArguments (line.flatMap Mention.arguments))
      ∧ ∀ line, Mentions CorpusBuilder.Options.specs line →
        CorpusBuilder.Options.ofArguments (line.flatMap Mention.arguments)
            = .ok (CorpusBuilder.Options.ofMentions line)
          ∧ ∀ line', SameOrder line line' →
            CorpusBuilder.Options.ofArguments (line'.flatMap Mention.arguments)
              = CorpusBuilder.Options.ofArguments (line.flatMap Mention.arguments) := by
  refine ⟨fun line h => ⟨Sentences.Options.ofArguments_arguments h, fun line' hsame => ?_⟩,
    fun line h => ⟨CorpusBuilder.Options.ofArguments_arguments h, fun line' hsame => ?_⟩⟩
  · rw [Sentences.Options.ofArguments_arguments h,
      Sentences.Options.ofArguments_arguments (h.of_sameOrder hsame),
      Sentences.Options.ofMentions_congr hsame]
  · rw [CorpusBuilder.Options.ofArguments_arguments h,
      CorpusBuilder.Options.ofArguments_arguments (h.of_sameOrder hsame),
      CorpusBuilder.Options.ofMentions_congr hsame]

/-- Options mentioned twice, in both forms, with values that are empty, hold an equals
sign, or would be taken for an option by themselves, and integers below zero and with
zeros in front. The later mention counts, and two mentions of different options may
change places. -/
theorem ofArguments_of_mentions_of_repeated :
    let five := Text.Decimal.ofInt (-5) (by decide)
    let seven : Text.Decimal :=
      ⟨false, "007".toList, by decide, List.all_eq_true.1 (by decide), by decide⟩
    let grammar := "--grammar".toList
    let directory := "--grammar_dir".toList
    let seed := "--seed".toList
    let front : List Mention := [.joined grammar (.text "--seed=1".toList),
      .apart directory (.text []), .joined seed (.integer five)]
    let last : Mention := .joined grammar (.text "a = b".toList)
    let other : Mention := .apart seed (.integer seven)
    (Mentions Sentences.Options.specs (front ++ [last, other, .flag "--strict".toList])
        ∧ Sentences.Options.ofArguments (["--grammar=--seed=1", "--grammar_dir", "", "--seed=-5",
            "--grammar=a = b", "--seed", "007", "--strict"].map String.toList)
          = .ok { grammar := some (.value "a = b".toList), directory := .value [],
                  seed := some (.value 7), strict := true })
      ∧ Mentions CorpusBuilder.Options.specs (front ++ [last, other])
        ∧ CorpusBuilder.Options.ofArguments (["--grammar=--seed=1", "--grammar_dir", "",
            "--seed=-5", "--seed", "007", "--grammar=a = b"].map String.toList)
          = .ok { grammar := .value "a = b".toList, directory := .value [],
                  seed := some (.value 7) } := by
  intro five seven grammar directory seed front last other
  have hsentences : Mentions Sentences.Options.specs
      (front ++ [last, other, .flag "--strict".toList]) := by decide
  have hcorpus : Mentions CorpusBuilder.Options.specs (front ++ [last, other]) := by decide
  have hsame : SameOrder (front ++ [last, other]) (front ++ [other, last]) :=
    sameOrder_swap (by decide) front []
  obtain ⟨hread, hswap⟩ := ofArguments_of_mentions.2 _ hcorpus
  exact ⟨⟨hsentences, (ofArguments_of_mentions.1 _ hsentences).1⟩, hcorpus,
    (hswap _ hsame).trans hread⟩

end SentenceForge

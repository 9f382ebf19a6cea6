import SentenceForge.Proofs.Expansion.Run
import SentenceForge.Proofs.Grammar.Built
import SentenceForge.Proofs.Grammar.Definition
import SentenceForge.Sentence.Basic

/-!
# How a sentence can fail

A text is read before anything is expanded, and each stage stops at its
own fault: the first malformed block, then a start that is not defined,
then what stops an expansion. So the outcome is settled in that order, and
the first two by the blocks alone.

The start is lacking if no block defines it, and also if the last block
that does has no bodies: such a definition replaces the earlier ones and
leaves no production behind (`LacksStart`). What is left is the outcome of
an expansion from the start, and `Settings.Permits` lists what that can
be.
-/

namespace SentenceForge

/-! ## What an expansion can end in -/

/-- **What an expansion may end in** under its settings. Without a depth
limit the room for nested calls is all that bounds it, and a grammar that
recurses for ever runs out of any. -/
inductive Settings.Permits (settings : Settings) {α : Type} : Except Error α → Prop where
  /-- It may have a result. -/
  | result (a : α) : Permits settings (.ok a)
  /-- Under a limit a name may lie too deep. -/
  | tooDeep (name : Text) (limit : Int) (limited : settings.maxDepth = some limit) :
      Permits settings (.error (.grammar (.tooDeep name limit)))
  /-- If it is strict, a name may be undefined. -/
  | undefined (name : Text) (strict : settings.strict = true) :
      Permits settings (.error (.grammar (.undefined name)))
  /-- Without a limit the room may run out. -/
  | exhausted (name : Text) (unlimited : settings.maxDepth = none) :
      Permits settings (.error (.exhausted name))

/-- What is made of a permitted result is permitted. -/
theorem Settings.Permits.map {settings : Settings} {α β : Type} {x : Except Error α}
    (h : settings.Permits x) (f : α → β) : settings.Permits (x.map f) := by
  cases h with
  | result a => exact .result (f a)
  | tooDeep name limit limited => exact .tooDeep name limit limited
  | undefined name strict => exact .undefined name strict
  | exhausted name unlimited => exact .exhausted name unlimited

/-- What stops a run is permitted, if only a strict one is stopped by an
undefined name. -/
theorem Settings.permits_errorOf (settings : Settings) {α : Type} {stop : Stop}
    (h : ∀ m, stop = .refused m → settings.strict = true) :
    settings.Permits (.error (settings.errorOf stop) : Except Error α) := by
  cases stop with
  | refused m => exact .undefined m (h m rfl)
  | cutOff m =>
    unfold errorOf
    cases hlimit : settings.maxDepth with
    | some limit => exact .tooDeep m limit hlimit
    | none => exact .exhausted m hlimit

/-- The settings with their room as a limit. -/
def Settings.limited (settings : Settings) : Settings :=
  { settings with maxDepth := some settings.headroom }

section Limited

variable {settings : Settings} {stop : Stop} {m : Text}

/-- A limit as wide as the room gives the levels that the room gives. -/
theorem Settings.levels_limited (h : settings.maxDepth = none) :
    settings.limited.levels = settings.levels := by
  show (settings.headroom : Int).toNat = settings.levels
  unfold levels
  rw [h, Int.toNat_natCast]

/-- Without a limit only depth exhausts. -/
theorem Settings.errorOf_eq_exhausted_iff (h : settings.maxDepth = none) :
    settings.errorOf stop = .exhausted m ↔ stop = .cutOff m := by
  unfold errorOf
  rw [h]
  cases stop with
  | refused n => simp
  | cutOff n => simp

/-- Under a limit only depth is too deep. -/
theorem Settings.errorOf_limited_eq_tooDeep_iff :
    settings.limited.errorOf stop = .grammar (.tooDeep m settings.headroom)
      ↔ stop = .cutOff m := by
  unfold errorOf limited
  cases stop with
  | refused n => simp
  | cutOff n => simp

end Limited

namespace Grammar

variable {σ : Type}

/-- **A name all of whose bodies begin with itself is cut off**, however
many levels there are. -/
theorem run_outcome_of_leftRecursive {g : Grammar} (source : Source σ) (strict : Bool)
    {name : Text} (hne : g.alternatives name ≠ [])
    (h : ∀ p ∈ g.alternatives name, p.body.head? = some (.reference name))
    (levels depth : Nat) (s : σ) :
    (g.run source strict levels depth name s).outcome = .error (.cutOff name) := by
  induction levels generalizing depth s with
  | zero => rfl
  | succ levels ih =>
    obtain ⟨p, ps, ha⟩ := List.exists_cons_of_ne_nil hne
    rw [run_of_defined source strict ha]
    rw [ha] at h
    obtain ⟨body, hbody⟩ := List.head?_eq_some_iff.1
      (h _ (List.get_mem (p :: ps) (source.draw ps.length s).1))
    simp only [hbody, Run.ofBody]
    rw [Run.andThen_of_error (ih (depth + 1) _)]
    exact ih (depth + 1) _

/-- **Without a limit left recursion runs out of room**, however much there
is. -/
theorem expand_of_leftRecursive {g : Grammar} (source : Source σ) {settings : Settings}
    (hunlimited : settings.maxDepth = none) {name : Text} (hne : g.alternatives name ≠ [])
    (h : ∀ p ∈ g.alternatives name, p.body.head? = some (.reference name)) (s : σ) :
    (g.expand source settings name s).result = .error (.exhausted name) :=
  expand_result_error_iff.2 ⟨_, run_outcome_of_leftRecursive source _ hne h _ 0 s,
    (Settings.errorOf_eq_exhausted_iff hunlimited).2 rfl⟩

/-- **An expansion ends in what its settings permit.** -/
theorem expand_permitted (g : Grammar) (source : Source σ) (settings : Settings)
    (name : Text) (s : σ) : settings.Permits (g.expand source settings name s).result := by
  show settings.Permits (((g.run source settings.strict settings.levels 0 name s).outcome.mapError
    settings.errorOf).map rawText)
  refine Settings.Permits.map ?_ rawText
  cases hr : (g.run source settings.strict settings.levels 0 name s).outcome with
  | ok ts => exact .result ts
  | error stop =>
    refine settings.permits_errorOf fun m hm => ?_
    cases hstrict : settings.strict with
    | true => rfl
    | false =>
      rw [hstrict, hm] at hr
      exact absurd hr (run_lenient_outcome_ne_refused g source _ 0 name s m)

/-- **Without a limit the room runs out where a limit of its size is
reached.** -/
theorem expand_exhausted_iff (g : Grammar) (source : Source σ) {settings : Settings}
    (h : settings.maxDepth = none) (name : Text) (s : σ) (m : Text) :
    (g.expand source settings name s).result = .error (.exhausted m)
      ↔ (g.expand source settings.limited name s).result
        = .error (.grammar (.tooDeep m settings.headroom)) := by
  rw [expand_result_error_iff, expand_result_error_iff, Settings.levels_limited h]
  simp only [Settings.errorOf_eq_exhausted_iff h, Settings.errorOf_limited_eq_tooDeep_iff]
  rfl

end Grammar

/-! ## When the start is lacking -/

/-- **The start is lacking** among definitions: none is of its name, or
the last of its name has no bodies. -/
def LacksStart (ds : List Definition) : Prop :=
  (∀ d ∈ ds, Text.fold d.name ≠ Text.fold startName)
    ∨ ∃ d, (ds.filter fun d => Text.fold d.name = Text.fold startName).getLast? = some d
      ∧ d.bodies = []

open Definition

/-- The start is lacking if its last definition has no productions. -/
theorem lacksStart_iff (ds : List Definition) :
    LacksStart ds
      ↔ ((lastOf ds (Text.fold startName)).map Definition.productions).getD [] = [] := by
  have hnone : (∀ d ∈ ds, Text.fold d.name ≠ Text.fold startName)
      ↔ lastOf ds (Text.fold startName) = none := by
    rw [← Option.not_isSome_iff_eq_none, lastOf_isSome]
    simp [key]
  show (_ ∨ ∃ d, lastOf ds (Text.fold startName) = some d ∧ d.bodies = []) ↔ _
  rw [hnone]
  cases lastOf ds (Text.fold startName) with
  | none => simp
  | some d => simp [Definition.productions, Production.ofBodies]

/-- A grammar defines its start unless that is lacking. -/
theorem defines_startName_iff (ds : List Definition) :
    (Grammar.ofDefinitions (kept ds)).defines startName = true ↔ ¬ LacksStart ds := by
  rw [Grammar.defines_iff, Grammar.alternatives_kept, lacksStart_iff]

/-- Without productions at all the start is lacking. -/
theorem lacksStart_of_flatMap_eq_nil {ds : List Definition}
    (h : (kept ds).flatMap Definition.productions = []) : LacksStart ds := by
  -- a start that is defined has an alternative, which is a production
  by_contra hs
  rw [← defines_startName_iff, Grammar.defines_iff] at hs
  obtain ⟨p, hp⟩ := List.exists_mem_of_ne_nil _ hs
  have hmem : p ∈ (kept ds).flatMap Definition.productions :=
    Grammar.mem_of_mem_alternatives hp
  rw [h] at hmem
  exact absurd hmem List.not_mem_nil

section Startable

variable {text : Text} {ds : List Definition}

/-- **A text without a start is no text to start from.** -/
theorem Grammar.startable_of_lacksStart (h : Definition.ofText text = .ok ds)
    (hlacks : LacksStart ds) :
    (startable text).result = .error (.grammar (.noStart startName)) := by
  have hdefines : (ofDefinitions (kept ds)).defines startName = false := by
    rw [Bool.eq_false_iff, ne_eq, defines_startName_iff, not_not]
    exact hlacks
  unfold startable
  rw [ofText_of_read h, ofEntries_definitions]
  -- without a production nothing is built, and with some the start is asked for
  by_cases hps : (kept ds).flatMap Definition.productions = []
  · rw [if_pos hps]
    rfl
  · rw [if_neg hps, Logged.andThen]
    simp only [hdefines]
    rfl

/-- **A text with a start makes a grammar to start from.** -/
theorem Grammar.startable_of_not_lacksStart (h : Definition.ofText text = .ok ds)
    (hlacks : ¬ LacksStart ds) :
    startable text = ofText text
      ∧ (ofText text).result = .ok (ofDefinitions (kept ds)) := by
  have hps : (kept ds).flatMap Definition.productions ≠ [] :=
    mt lacksStart_of_flatMap_eq_nil hlacks
  have hdefines := (defines_startName_iff ds).2 hlacks
  unfold startable
  rw [ofText_of_read h, ofEntries_definitions, if_neg hps, Logged.andThen]
  simp only [hdefines, if_pos, Logged.ok, List.append_nil, and_self]

end Startable

/-! ## The outcome of a text -/

section Outcome

variable {σ : Type} {text : Text} {ds : List Definition} (source : Source σ)
  (settings : Settings) (s : σ)

/-- **A malformed block is all there is to report**: nothing was said and
nothing was chosen. -/
theorem sentenceOfText_of_malformed {b : Text}
    (h : (blocks text).find? (Malformed ·) = some b) :
    ∃ f : Fault, f.IsSyntax ∧ ofBlock b = .error f
      ∧ sentenceOfText text source settings s = .failed (.grammar f) s := by
  obtain ⟨f, hkind, hf, htext⟩ := ofText_eq_error h
  refine ⟨f, hkind, hf, ?_⟩
  unfold sentenceOfText Grammar.startable Grammar.ofText
  rw [htext]
  rfl

/-- **Where the start is lacking nothing is chosen.** -/
theorem sentenceOfText_of_lacksStart (h : Definition.ofText text = .ok ds)
    (hlacks : LacksStart ds) :
    (sentenceOfText text source settings s).result = .error (.grammar (.noStart startName))
      ∧ (sentenceOfText text source settings s).choices = []
      ∧ (sentenceOfText text source settings s).source = s := by
  unfold sentenceOfText Generation.ofLogged
  rw [Grammar.startable_of_lacksStart h hlacks]
  exact ⟨rfl, rfl, rfl⟩

/-- **Where it is not, the outcome is that of an expansion** from the
start, behind the notices of reading the text. -/
theorem sentenceOfText_of_not_lacksStart (h : Definition.ofText text = .ok ds)
    (hlacks : ¬ LacksStart ds) :
    let e := (Grammar.ofDefinitions (kept ds)).expand source settings
      (Grammar.ofDefinitions (kept ds)).start s
    sentenceOfText text source settings s
      = ⟨(Grammar.ofText text).notices ++ e.notices, e.choices,
        e.result.map sentenceOfRaw, e.source⟩ := by
  obtain ⟨hstart, hresult⟩ := Grammar.startable_of_not_lacksStart h hlacks
  unfold sentenceOfText Generation.ofLogged
  rw [hstart, hresult]
  rfl

/-- A permitted end is no fault of reading. -/
theorem Settings.Permits.ne_reading {settings : Settings} {α : Type} {x : Except Error α}
    (h : settings.Permits x) {f : Fault} (hx : x = .error (.grammar f)) :
    ¬ f.IsSyntax ∧ ∀ name, f ≠ .noStart name := by
  cases h with
  | result a => cases hx
  | exhausted name unlimited => cases hx
  | tooDeep name limit limited =>
    cases hx
    exact ⟨fun ⟨_, e⟩ => (nomatch e), fun _ e => (nomatch e)⟩
  | undefined name strict =>
    cases hx
    exact ⟨fun ⟨_, e⟩ => (nomatch e), fun _ e => (nomatch e)⟩

/-- A missing start is no fault of syntax. -/
theorem not_isSyntax_noStart (name : Text) : ¬ (Fault.noStart name).IsSyntax :=
  fun ⟨_, e⟩ => nomatch e

end Outcome

/-- **The outcome of a sentence, by stages.** It is a fault of syntax
exactly if a block is malformed, and then that of the first such block,
with nothing said and nothing chosen. If none is, every block has its
definition, and the outcome is a missing start exactly if the start is
lacking among these, again with nothing chosen. Otherwise it is that of an
expansion from the start of the grammar, and nothing but what the settings
permit; without a limit the room runs out exactly where a limit of that
size is reached. -/
theorem sentenceOfText_outcome {σ : Type} (text : Text) (source : Source σ)
    (settings : Settings) (s : σ) :
    ((∃ f : Fault, f.IsSyntax
        ∧ (sentenceOfText text source settings s).result = .error (.grammar f))
      ↔ ∃ b ∈ blocks text, Malformed b)
    ∧ (∀ b, (blocks text).find? (Malformed ·) = some b →
      ∃ f : Fault, f.IsSyntax ∧ ofBlock b = .error f
        ∧ sentenceOfText text source settings s = .failed (.grammar f) s)
    ∧ ((∀ b ∈ blocks text, ¬ Malformed b) →
      ∃ ds, List.Forall₂ (fun b d => ofBlock b = .ok d) (blocks text) ds
        ∧ ((∃ name, (sentenceOfText text source settings s).result
              = .error (.grammar (.noStart name)))
            ↔ LacksStart ds)
        ∧ (LacksStart ds →
          (sentenceOfText text source settings s).result
              = .error (.grammar (.noStart startName))
            ∧ (sentenceOfText text source settings s).choices = []
            ∧ (sentenceOfText text source settings s).source = s)
        ∧ (¬ LacksStart ds →
          ∃ g e, (Grammar.ofText text).result = .ok g
            ∧ Text.fold g.start = Text.fold startName
            ∧ g.expand source settings g.start s = e
            ∧ settings.Permits e.result
            ∧ (settings.maxDepth = none → ∀ m, e.result = .error (.exhausted m)
              ↔ (g.expand source settings.limited g.start s).result
                = .error (.grammar (.tooDeep m settings.headroom)))
            ∧ sentenceOfText text source settings s
              = ⟨(Grammar.ofText text).notices ++ e.notices, e.choices,
                e.result.map sentenceOfRaw, e.source⟩)) := by
  -- without a malformed block the outcome is a missing start or an expansion
  have hread : (∀ b ∈ blocks text, ¬ Malformed b) →
      Definition.ofText text = .ok ((blocks text).map read) := ofText_eq_ok
  have hwell : (∀ b ∈ blocks text, ¬ Malformed b) → ∀ f : Fault,
      (sentenceOfText text source settings s).result = .error (.grammar f) →
      ¬ f.IsSyntax ∧ ((∃ name, f = .noStart name) → LacksStart ((blocks text).map read)) := by
    intro h f hf
    by_cases hlacks : LacksStart ((blocks text).map read)
    · refine ⟨?_, fun _ => hlacks⟩
      rw [(sentenceOfText_of_lacksStart source settings s (hread h) hlacks).1] at hf
      cases hf
      exact not_isSyntax_noStart startName
    · rw [sentenceOfText_of_not_lacksStart source settings s (hread h) hlacks] at hf
      obtain ⟨hkind, hstart⟩ := ((Grammar.expand_permitted _ source settings _ s).map
        sentenceOfRaw).ne_reading hf
      exact ⟨hkind, fun ⟨name, hname⟩ => absurd hname (hstart name)⟩
  have hfirst : ∀ b, (blocks text).find? (Malformed ·) = some b →
      ∃ f : Fault, f.IsSyntax ∧ ofBlock b = .error f
        ∧ sentenceOfText text source settings s = .failed (.grammar f) s :=
    fun _ => sentenceOfText_of_malformed source settings s
  refine ⟨⟨?_, ?_⟩, hfirst, fun h => ⟨(blocks text).map read, ?_, ⟨?_, ?_⟩, ?_, ?_⟩⟩
  · rintro ⟨f, hkind, hf⟩
    by_contra hnone
    simp only [not_exists, not_and] at hnone
    exact (hwell hnone f hf).1 hkind
  · rintro ⟨b, hb, hbad⟩
    obtain ⟨c, hc⟩ := exists_first_malformed hb hbad
    obtain ⟨f, hkind, -, hf⟩ := hfirst c hc
    exact ⟨f, hkind, by rw [hf]; rfl⟩
  · rw [List.forall₂_map_right_iff, List.forall₂_same]
    exact fun b hb => ofBlock_eq_ok (h b hb)
  · rintro ⟨name, hname⟩
    exact (hwell h _ hname).2 ⟨name, rfl⟩
  · intro hlacks
    exact ⟨startName, (sentenceOfText_of_lacksStart source settings s (hread h) hlacks).1⟩
  · exact sentenceOfText_of_lacksStart source settings s (hread h)
  · intro hlacks
    exact ⟨_, _, (Grammar.startable_of_not_lacksStart (hread h) hlacks).2, Grammar.fold_startOf _,
      rfl, Grammar.expand_permitted _ source settings _ s,
      fun hunlimited => Grammar.expand_exhausted_iff _ source hunlimited _ s,
      sentenceOfText_of_not_lacksStart source settings s (hread h) hlacks⟩

/-- A start that the last block leaves without bodies is lacking. -/
theorem sentenceOfText_outcome_of_emptied :
    (sentenceOfText "\x7b<start> a ;\x7d \x7b<Start>\x7d".toList Random.Chooser.source {}
      .first).result = .error (.grammar (.noStart startName)) := by
  obtain ⟨ds, hds, -, hlacks, -⟩ :=
    (sentenceOfText_outcome "\x7b<start> a ;\x7d \x7b<Start>\x7d".toList Random.Chooser.source {}
      .first).2.2 (by decide)
  refine (hlacks (.inr ?_)).1
  cases hds with
  | cons h hds =>
    cases hds with
    | cons h' hds =>
      cases hds
      cases h
      cases h'
      exact ⟨_, rfl, rfl⟩

/-- **Without a limit a cycle runs out of any room**, and that is no fault
of the grammar. -/
theorem sentenceOfText_of_unlimited_cycle :
    let r := (sentenceOfText "\x7b<start> <start> ;\x7d".toList Random.Chooser.source
      { maxDepth := none } .first).result
    r = .error (.exhausted startName)
      ∧ ¬ ((∃ sentence, r = .ok sentence) ∨ ∃ f, r = .error (.grammar f)) := by
  intro r
  have hread : Definition.ofText "\x7b<start> <start> ;\x7d".toList
      = .ok [⟨startName, [startName]⟩] := by decide
  have hstart : ¬ LacksStart [⟨startName, [startName]⟩] := by
    rw [lacksStart_iff]
    decide
  have hr : r = .error (.exhausted startName) := by
    have hname : (Grammar.ofDefinitions (kept [⟨startName, [startName]⟩])).start = startName := by
      decide
    have hexpand := Grammar.expand_of_leftRecursive Random.Chooser.source
      (by rfl : Settings.maxDepth { maxDepth := none } = none)
      (by decide : (Grammar.ofDefinitions (kept [⟨startName, [startName]⟩])).alternatives
        startName ≠ [])
      (by decide) .first
    unfold r
    rw [sentenceOfText_of_not_lacksStart _ _ _ hread hstart, hname]
    simp only [hexpand]
    rfl
  refine ⟨hr, ?_⟩
  rw [hr]
  rintro (⟨sentence, h⟩ | ⟨f, h⟩) <;> cases h

end SentenceForge

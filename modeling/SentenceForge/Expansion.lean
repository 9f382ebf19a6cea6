import SentenceForge.Grammar.Builder
import SentenceForge.Random.Source

/-!
# Expansion

A name is expanded by choosing one of its alternatives and expanding the
references of its body from left to right; the terminals met on the way
are the result. A name without alternatives expands to nothing, or stops
the expansion if it is strict.

The recursion nests, and on a cyclic grammar it need not end by itself, so
it is given a number of levels. The count is checked when a name is
reached and before anything is looked up or chosen: a name at the level
past the last stops the expansion whether it is defined or not. This is
the only thing the levels do, and a run that is not stopped by them is the
same run with more of them.

A run is recorded as what happened at each name, in the order in which the
names were reached. The choices made and the notices given are both read
off that record, so they cannot disagree with it or with each other.
-/

namespace SentenceForge

/-! ## Runs -/

/-- What happened at a name. -/
inductive Step where
  /-- One of its alternatives was chosen. -/
  | chose (choice : Choice)
  /-- It has none and was passed over. -/
  | skipped
  /-- It has none and the expansion is strict. -/
  | refused
  /-- It lies too deep. -/
  | cutOff
  deriving DecidableEq, Repr

/-- A name that was reached. -/
structure Visit where
  /-- How many references lie between it and the name expanded. -/
  depth : Nat
  /-- The name as written where it is referred to. -/
  name : Text
  /-- What happened there. -/
  step : Step
  deriving DecidableEq, Repr

namespace Visit

/-- The choice made at a name, if one was. -/
def choice? (v : Visit) : Option Choice :=
  match v.step with
  | .chose c => some c
  | _ => none

/-- The notice given at a name, if one was. -/
def notice? (v : Visit) : Option Notice :=
  match v.step with
  | .skipped => some (.skipped v.name)
  | _ => none

end Visit

/-- What stops an expansion. -/
inductive Stop where
  /-- A name without alternatives, where that is not allowed. -/
  | refused (name : Text)
  /-- A name that lies too deep. -/
  | cutOff (name : Text)
  deriving DecidableEq, Repr

/-- **A run of an expansion** with a source of memory `σ`. -/
structure Run (σ : Type) where
  /-- The names reached, in order. -/
  visits : List Visit
  /-- The terminals in order, or what stopped the run. -/
  outcome : Except Stop (List Text)
  /-- What the source remembers afterwards. -/
  source : σ

namespace Run

variable {σ : Type}

/-- The choices of a run. -/
def choices (r : Run σ) : List Choice := r.visits.filterMap Visit.choice?

/-- The notices of a run. -/
def notices (r : Run σ) : List Notice := r.visits.filterMap Visit.notice?

/-- The run that reaches nothing and says nothing. -/
def idle (s : σ) : Run σ := ⟨[], .ok [], s⟩

/-- A run after which one more terminal is said in front. -/
def said (t : Text) (r : Run σ) : Run σ :=
  ⟨r.visits, r.outcome.map (t :: ·), r.source⟩

/-- A run followed by another from the memory it leaves, unless it was
stopped. -/
def andThen (r : Run σ) (next : σ → Run σ) : Run σ :=
  match r.outcome with
  | .error _ => r
  | .ok ts =>
    let r' := next r.source
    ⟨r.visits ++ r'.visits, r'.outcome.map (ts ++ ·), r'.source⟩

/-- The run of a body, given the runs of its references. -/
def ofBody (expand : Text → σ → Run σ) : List Symbol → σ → Run σ
  | [], s => idle s
  | .terminal t :: body, s => (ofBody expand body s).said t
  | .reference n :: body, s => (expand n s).andThen (ofBody expand body)

end Run

/-- **The run of a name** within a number of levels, `depth` references
below the name that is expanded. -/
def Grammar.run {σ : Type} (g : Grammar) (source : Source σ)
    (strict : Bool) : (levels depth : Nat) → Text → σ → Run σ
  | 0, depth, name, s => ⟨[⟨depth, name, .cutOff⟩], .error (.cutOff name), s⟩
  | levels + 1, depth, name, s =>
    match g.alternatives name with
    | [] =>
      if strict then
        ⟨[⟨depth, name, .refused⟩], .error (.refused name), s⟩
      else ⟨[⟨depth, name, .skipped⟩], .ok [], s⟩
    | p :: ps =>
      let drawn := source.draw ps.length s
      let rest :=
        Run.ofBody (g.run source strict levels (depth + 1))
          ((p :: ps).get drawn.1).body drawn.2
      ⟨⟨depth, name, .chose ⟨ps.length + 1, drawn.1⟩⟩ :: rest.visits,
        rest.outcome, rest.source⟩

/-! ## Settings -/

/-- **How to expand.**

A depth limit is taken to fit: there is assumed to be room for as many nested
calls as it lets through, however large it is, so that an expansion with a
limit ends by itself or at the limit. Only without a limit is the room what
stops an expansion that does not end, and the headroom says how much of it
there is. -/
structure Settings where
  /-- Whether a reference to an undefined name stops the expansion. -/
  strict : Bool := false
  /-- The depth limit, if there is one. A limit that is not positive lets
  no name be reached. -/
  maxDepth : Option Int := some 200
  /-- The levels an expansion without a limit may nest. -/
  headroom : Nat := 10000
  deriving DecidableEq, Repr

namespace Settings

/-- The levels an expansion is given: all that its limit lets through, these
being taken to fit, and the headroom if there is no limit. -/
def levels (settings : Settings) : Nat :=
  match settings.maxDepth with
  | some limit => limit.toNat
  | none => settings.headroom

/-- The error that a stop is reported as. -/
def errorOf (settings : Settings) : Stop → Error
  | .refused name => .grammar (.undefined name)
  | .cutOff name =>
    match settings.maxDepth with
    | some limit => .grammar (.tooDeep name limit)
    | none => .exhausted name

end Settings

/-! ## Results -/

/-- **What making something of a grammar leaves behind**: the notices and
the choices in order, the result or what stopped it, and the memory of the
source. -/
structure Generation (σ α : Type) where
  /-- The notices in order. -/
  notices : List Notice
  /-- The choices in order. -/
  choices : List Choice
  /-- The result, or what stopped it. -/
  result : Except Error α
  /-- What the source remembers afterwards. -/
  source : σ

namespace Generation

variable {σ α β : Type}

/-- A generation whose result is changed. -/
def map (f : α → β) (x : Generation σ α) : Generation σ β :=
  ⟨x.notices, x.choices, x.result.map f, x.source⟩

/-- A generation that was stopped at once. -/
def failed (e : Error) (s : σ) : Generation σ α := ⟨[], [], .error e, s⟩

/-- What is made of a logged result, if there is one. -/
def ofLogged (x : Logged α) (s : σ) (f : α → Generation σ β) :
    Generation σ β :=
  match x.result with
  | .error e => ⟨x.notices, [], .error e, s⟩
  | .ok a =>
    let y := f a
    ⟨x.notices ++ y.notices, y.choices, y.result, y.source⟩

/-- Nothing is made of a result that is not there. -/
theorem ofLogged_of_error {x : Logged α} {e : Error} (h : x.result = .error e) (s : σ)
    (f : α → Generation σ β) : ofLogged x s f = ⟨x.notices, [], .error e, s⟩ := by
  rw [ofLogged, h]

/-- What is made of a result is what is made of it without the log, but for
the notices. -/
theorem ofLogged_of_ok {x : Logged α} {a : α} (h : x.result = .ok a) (s : σ)
    (f : α → Generation σ β) :
    ofLogged x s f = ⟨x.notices ++ (f a).notices, (f a).choices, (f a).result, (f a).source⟩ := by
  rw [ofLogged, h]

/-- Something is made only of a result that is there. -/
theorem ofLogged_result_ok {x : Logged α} {s : σ} {f : α → Generation σ β} {b : β}
    (h : (ofLogged x s f).result = .ok b) :
    ∃ a, x.result = .ok a ∧ (f a).result = .ok b := by
  cases hx : x.result with
  | error e =>
    rw [ofLogged_of_error hx] at h
    cases h
  | ok a =>
    rw [ofLogged_of_ok hx] at h
    exact ⟨a, rfl, h⟩

end Generation

/-- The raw form of a list of terminals: each is followed by a space. -/
def rawText (terminals : List Text) : Text :=
  terminals.flatMap (· ++ [' '])

/-- **The expansion of a name** as raw text. -/
def Grammar.expand {σ : Type} (g : Grammar) (source : Source σ)
    (settings : Settings) (name : Text) (s : σ) : Generation σ Text :=
  let r := g.run source settings.strict settings.levels 0 name s
  ⟨r.notices, r.choices,
    (r.outcome.mapError settings.errorOf).map rawText, r.source⟩

end SentenceForge

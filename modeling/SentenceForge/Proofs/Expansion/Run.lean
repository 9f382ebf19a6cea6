import SentenceForge.Expansion
import SentenceForge.Random.Chooser

/-!
# What a run leaves behind

A run is built from four shapes: one that reaches nothing, one more
terminal in front, one run after another, and a name with what it expands
to. The choices, the notices and the outcome of each shape are those of
its parts, and a run of a name is one of four by what the name has and by
the levels that are left. Everything about runs is an induction over these
equations.

A source is seen through its answers. `Source.Answers` says which choices
a source makes in turn. The choices of a run are the answers of its source
(`Grammar.answers_run`), and any choices that could be made are the answers
of some source: a script answers with those it was written from
(`answers_script`).
-/

namespace SentenceForge

/-! ## The shapes of a run -/

namespace Run

variable {σ : Type}

/-- **A run that was not stopped is followed by the next.** -/
theorem andThen_of_ok {r : Run σ} {ts : List Text} (h : r.outcome = .ok ts)
    (next : σ → Run σ) :
    r.andThen next
      = ⟨r.visits ++ (next r.source).visits, (next r.source).outcome.map (ts ++ ·),
        (next r.source).source⟩ := by
  rw [andThen, h]

/-- **A run that was stopped is not followed.** -/
theorem andThen_of_error {r : Run σ} {e : Stop} (h : r.outcome = .error e)
    (next : σ → Run σ) : r.andThen next = r := by
  rw [andThen, h]

/-- A terminal is said in front of what a run says, if it says
something. -/
theorem said_outcome_ok {t : Text} {r : Run σ} {us : List Text}
    (h : (r.said t).outcome = .ok us) : ∃ ts, r.outcome = .ok ts ∧ us = t :: ts := by
  obtain ⟨visits, outcome, source⟩ := r
  cases outcome with
  | error e => cases h
  | ok ts => exact ⟨ts, rfl, (Except.ok.inj h).symm⟩

/-- Of two runs in a row that say something, each does. -/
theorem andThen_outcome_ok {r : Run σ} {next : σ → Run σ} {us : List Text}
    (h : (r.andThen next).outcome = .ok us) :
    ∃ ts ts', r.outcome = .ok ts ∧ (next r.source).outcome = .ok ts' ∧ us = ts ++ ts' := by
  cases hr : r.outcome with
  | error e =>
    rw [andThen_of_error hr, hr] at h
    cases h
  | ok ts =>
    rw [andThen_of_ok hr] at h
    cases hn : (next r.source).outcome with
    | error e =>
      rw [hn] at h
      cases h
    | ok ts' =>
      rw [hn] at h
      exact ⟨ts, ts', rfl, rfl, (Except.ok.inj h).symm⟩

/-- A run with a terminal in front is stopped by what stops it. -/
theorem said_outcome_error {t : Text} {r : Run σ} {e : Stop}
    (h : (r.said t).outcome = .error e) : r.outcome = .error e := by
  obtain ⟨visits, outcome, source⟩ := r
  cases outcome with
  | error e' => exact congrArg Except.error (Except.error.inj h)
  | ok ts => cases h

/-- Of two runs in a row that are stopped, one is stopped by the same. -/
theorem andThen_outcome_error {r : Run σ} {next : σ → Run σ} {e : Stop}
    (h : (r.andThen next).outcome = .error e) :
    r.outcome = .error e ∨ (next r.source).outcome = .error e := by
  cases hr : r.outcome with
  | error e' =>
    rw [andThen_of_error hr, hr] at h
    exact .inl h
  | ok ts =>
    rw [andThen_of_ok hr] at h
    cases hn : (next r.source).outcome with
    | error e' =>
      rw [hn] at h
      exact .inr (congrArg Except.error (Except.error.inj h))
    | ok ts' =>
      rw [hn] at h
      cases h

/-- **A body is stopped by what stops one of its references.** -/
theorem ofBody_outcome_error {expand : Text → σ → Run σ} {body : List Symbol} {s : σ} {e : Stop}
    (h : (ofBody expand body s).outcome = .error e) :
    ∃ name s', Symbol.reference name ∈ body ∧ (expand name s').outcome = .error e := by
  induction body generalizing s with
  | nil => cases h
  | cons x body ih =>
    cases x with
    | terminal t =>
      obtain ⟨name, s', hname, hstop⟩ := ih (said_outcome_error h)
      exact ⟨name, s', List.mem_cons_of_mem _ hname, hstop⟩
    | reference name =>
      rcases andThen_outcome_error h with hstop | hrest
      · exact ⟨name, s, List.mem_cons_self, hstop⟩
      · obtain ⟨name', s', hname, hstop⟩ := ih hrest
        exact ⟨name', s', List.mem_cons_of_mem _ hname, hstop⟩

end Run

namespace Grammar

variable {σ : Type} (g : Grammar) (source : Source σ) (strict : Bool)

/-- Without a level left, a name is cut off, defined or not. -/
theorem run_zero (depth : Nat) (name : Text) (s : σ) :
    g.run source strict 0 depth name s
      = ⟨[⟨depth, name, .cutOff⟩], .error (.cutOff name), s⟩ := rfl

variable {g}

/-- A name without alternatives is refused by a strict run. -/
theorem run_strict_of_undefined {name : Text} (h : g.alternatives name = [])
    (levels depth : Nat) (s : σ) :
    g.run source true (levels + 1) depth name s
      = ⟨[⟨depth, name, .refused⟩], .error (.refused name), s⟩ := by
  rw [run, h, if_pos rfl]

/-- A name without alternatives is passed over by a lenient run. -/
theorem run_lenient_of_undefined {name : Text} (h : g.alternatives name = [])
    (levels depth : Nat) (s : σ) :
    g.run source false (levels + 1) depth name s
      = ⟨[⟨depth, name, .skipped⟩], .ok [], s⟩ := by
  rw [run, h, if_neg Bool.false_ne_true]

/-- **A defined name is one of its alternatives**, whichever the source
takes, expanded one level down. -/
theorem run_of_defined {name : Text} {p : Production} {ps : List Production}
    (h : g.alternatives name = p :: ps) (levels depth : Nat) (s : σ) :
    g.run source strict (levels + 1) depth name s
      = let drawn := source.draw ps.length s
        let rest := Run.ofBody (g.run source strict levels (depth + 1))
          ((p :: ps).get drawn.1).body drawn.2
        ⟨⟨depth, name, .chose ⟨ps.length + 1, drawn.1⟩⟩ :: rest.visits,
          rest.outcome, rest.source⟩ := by
  rw [run, h]

/-- A defined name is the alternative that the source is known to
take. -/
theorem run_of_draw {name : Text} (choice : Fin (g.alternatives name).length)
    {k : Nat} (hk : (g.alternatives name).length = k + 1) {s : σ}
    (hdraw : ((source.draw k s).1 : Nat) = choice) (levels depth : Nat) :
    g.run source strict (levels + 1) depth name s
      = let rest := Run.ofBody (g.run source strict levels (depth + 1))
          ((g.alternatives name).get choice).body (source.draw k s).2
        ⟨⟨depth, name, .chose ⟨(g.alternatives name).length, choice⟩⟩ :: rest.visits,
          rest.outcome, rest.source⟩ := by
  -- `choice` is an index into the alternatives, and has to be one into `p :: ps`
  obtain ⟨p, ps, h⟩ := List.exists_cons_of_length_eq_add_one hk
  obtain rfl : ps.length = k := by simpa [h] using hk
  have hget : (g.alternatives name).get choice
      = (p :: ps).get (source.draw ps.length s).1 := by
    rw [List.get_of_eq h]
    exact congrArg (p :: ps).get (Fin.ext hdraw.symm)
  rw [run_of_defined source strict h, hget, ← hdraw, hk]

/-- **A lenient run refuses no name.** -/
theorem run_lenient_outcome_ne_refused (g : Grammar) (source : Source σ)
    (levels depth : Nat) (name : Text) (s : σ) (m : Text) :
    (g.run source false levels depth name s).outcome ≠ .error (.refused m) := by
  induction levels generalizing depth name s m with
  | zero => exact fun e => nomatch e
  | succ levels ih =>
    cases ha : g.alternatives name with
    | nil =>
      rw [run_lenient_of_undefined source ha]
      exact fun e => nomatch e
    | cons p ps =>
      rw [run_of_defined source false ha]
      intro e
      obtain ⟨n, s', -, hn⟩ := Run.ofBody_outcome_error e
      exact ih (depth + 1) n s' m hn

/-- An expansion is stopped by what stops its run. -/
theorem expand_result_error_iff {g : Grammar} {source : Source σ} {settings : Settings}
    {name : Text} {s : σ} {e : Error} :
    (g.expand source settings name s).result = .error e
      ↔ ∃ stop, (g.run source settings.strict settings.levels 0 name s).outcome = .error stop
        ∧ settings.errorOf stop = e := by
  show ((g.run source settings.strict settings.levels 0 name s).outcome.mapError _).map rawText
    = _ ↔ _
  cases (g.run source settings.strict settings.levels 0 name s).outcome with
  | ok ts =>
    constructor
    · exact fun h => nomatch h
    · exact fun ⟨_, h, _⟩ => nomatch h
  | error stop =>
    constructor
    · exact fun h => ⟨stop, rfl, Except.error.inj h⟩
    · rintro ⟨stop', h, rfl⟩
      obtain rfl := Except.error.inj h
      rfl

end Grammar

/-! ## What a source answers -/

namespace Source

variable {σ : Type}

/-- **What a source answers in turn**: the choices it makes from one state
of its memory to another. -/
inductive Answers (source : Source σ) : σ → List Choice → σ → Prop where
  /-- Asked nothing, it stays as it is. -/
  | nothing (s : σ) : Answers source s [] s
  /-- Asked once, it goes on from what it remembers then. -/
  | next {k : Nat} {s s' : σ} {cs : List Choice}
      (rest : Answers source (source.draw k s).2 cs s') :
      Answers source s (⟨k + 1, (source.draw k s).1⟩ :: cs) s'

variable {source : Source σ}

/-- The first of the answers and the rest. -/
theorem Answers.of_cons {s s' : σ} {c : Choice} {cs : List Choice}
    (h : source.Answers s (c :: cs) s') :
    ∃ k, c.candidates = k + 1 ∧ ((source.draw k s).1 : Nat) = c.index
      ∧ source.Answers (source.draw k s).2 cs s' := by
  cases h with
  | @next k _ _ _ rest => exact ⟨k, rfl, rfl, rest⟩

/-- Answers in a row, taken apart. -/
theorem Answers.of_append {s s'' : σ} {cs ds : List Choice}
    (h : source.Answers s (cs ++ ds) s'') :
    ∃ s', source.Answers s cs s' ∧ source.Answers s' ds s'' := by
  induction cs generalizing s with
  | nil => exact ⟨s, .nothing s, h⟩
  | cons c cs ih =>
    cases h with
    | next rest =>
      obtain ⟨s', hcs, hds⟩ := ih rest
      exact ⟨s', .next hcs, hds⟩

/-- Answers in a row, put together. -/
theorem Answers.append {s s' s'' : σ} {cs ds : List Choice} (h : source.Answers s cs s')
    (h' : source.Answers s' ds s'') : source.Answers s (cs ++ ds) s'' := by
  induction h with
  | nothing s => exact h'
  | next _ ih => exact .next (ih h')

end Source

/-- A body makes the choices that its source answers with, if its
references do. -/
theorem Run.answers_ofBody {σ : Type} {source : Source σ} {expand : Text → σ → Run σ}
    (h : ∀ name s, source.Answers s (expand name s).choices (expand name s).source)
    (body : List Symbol) (s : σ) :
    source.Answers s (ofBody expand body s).choices (ofBody expand body s).source := by
  induction body generalizing s with
  | nil => exact .nothing s
  | cons x body ih =>
    cases x with
    | terminal t => exact ih s
    | reference name =>
      rw [ofBody]
      cases hr : (expand name s).outcome with
      | error stop =>
        rw [andThen_of_error hr]
        exact h name s
      | ok ts =>
        rw [andThen_of_ok hr, choices, List.filterMap_append]
        exact (h name s).append (ih _)

/-- **A run makes the choices that its source answers with**, from the state
it is given to the one it leaves, stopped or not. -/
theorem Grammar.answers_run {σ : Type} (g : Grammar) (source : Source σ) (strict : Bool)
    (levels depth : Nat) (name : Text) (s : σ) :
    source.Answers s (g.run source strict levels depth name s).choices
      (g.run source strict levels depth name s).source := by
  induction levels generalizing depth name s with
  | zero => exact .nothing s
  | succ levels ih =>
    cases ha : g.alternatives name with
    | nil =>
      cases strict with
      | true =>
        rw [run_strict_of_undefined source ha]
        exact .nothing s
      | false =>
        rw [run_lenient_of_undefined source ha]
        exact .nothing s
    | cons p ps =>
      rw [run_of_defined source strict ha]
      exact .next (Run.answers_ofBody (ih (depth + 1)) _ _)

/-! ## What a script answers -/

/-- A choice is **valid** if it is one of its candidates. -/
def Choice.Valid (c : Choice) : Prop := c.index < c.candidates

namespace Random.Chooser

/-- A script reduces an index that is one of the candidates to itself. -/
theorem reduced_of_lt {k i : Nat} (h : i < k + 1) : (reduced k (i : Int) : Nat) = i := by
  have hmod : ((i : Int) % (k + 1 : Nat)).toNat = i := by
    rw [← Int.natCast_emod, Int.toNat_natCast, Nat.mod_eq_of_lt h]
  show ((i : Int) % (k + 1 : Nat)).toNat % (k + 1) = i
  rw [hmod, Nat.mod_eq_of_lt h]

/-- A script that is not used up gives the index it has next. -/
theorem scripted_append (used rest : List Int) (i : Int) :
    scripted (used ++ i :: rest) used.length = i := by
  have hlt : used.length < (used ++ i :: rest).length := by simp
  rw [scripted, Nat.mod_eq_of_lt hlt, List.getD_eq_getElem?_getD,
    List.getElem?_append_right (Nat.le_refl _)]
  simp

/-- **A script answers with the choices it was written from**, from where
it stands. -/
theorem answers_script {cs : List Choice} (h : ∀ c ∈ cs, c.Valid) (used : List Int) :
    source.Answers (.script (used ++ cs.map fun c => (c.index : Int)) used.length) cs
      (.script (used ++ cs.map fun c => (c.index : Int)) (used.length + cs.length)) := by
  induction cs generalizing used with
  | nil => exact .nothing _
  | cons c cs ih =>
    obtain ⟨candidates, index⟩ := c
    have hlt : index < candidates := h _ List.mem_cons_self
    obtain ⟨k, rfl⟩ : ∃ k, candidates = k + 1 :=
      Nat.exists_eq_succ_of_ne_zero (Nat.ne_zero_of_lt hlt)
    -- one step of the script reads `index` and leaves the rest of it
    let is : List Int := used ++ (⟨k + 1, index⟩ :: cs).map fun c => (c.index : Int)
    have his : is = used ++ [(index : Int)] ++ cs.map fun c => (c.index : Int) := by simp [is]
    have hnext : scripted is used.length = (index : Int) := scripted_append ..
    have hindex : ((source.draw k (.script is used.length)).1 : Nat) = index := by
      show ((reduced k (scripted is used.length) : Fin (k + 1)) : Nat) = index
      rw [hnext, reduced_of_lt hlt]
    have hrest : source.Answers (source.draw k (.script is used.length)).2 cs
        (.script is (used.length + (cs.length + 1))) := by
      show source.Answers (.script is (used.length + 1)) cs _
      rw [his]
      simpa [Nat.add_assoc, Nat.add_comm 1] using
        ih (fun c hc => h c (List.mem_cons_of_mem _ hc)) (used ++ [(index : Int)])
    have hstep := Source.Answers.next hrest
    rw [hindex] at hstep
    exact hstep

end Random.Chooser

end SentenceForge

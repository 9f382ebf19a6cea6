import SentenceForge.Proofs.Expansion.Run

/-!
# Runs with a barrier

Strictness and a depth limit do the same to a run. There is something that
they look for in the names it reaches. As long as they do not find it the
run is what it would be without them, and at the first name where they do
it stops. They differ in what they look for and in what the run is then
stopped by, and a `Barrier` is just that.

`Run.Barred` relates a run to the same run with a barrier in its way. Each
of the shapes that runs are built from keeps the relation – one run after
another because a run that is stopped is not followed – so to know it of
the runs of a name at every level is to know what a single name becomes.
-/

namespace SentenceForge

/-- **A barrier** in the way of a run. -/
structure Barrier where
  /-- What it lets pass. -/
  passes : Visit → Prop
  /-- What it stops at. -/
  stops : Visit → Prop
  /-- What happens instead at a name where it stops a run. -/
  step : Step
  /-- What a run is stopped by there. -/
  stop : Text → Stop

namespace Run

variable {σ : Type}

/-- **A run with a barrier in its way**: the same, if all its names pass, and
otherwise the run up to the first that does not, where it is stopped. -/
inductive Barred (b : Barrier) : (free barred : Run σ) → Prop where
  /-- All names pass. -/
  | same {r : Run σ} (passes : ∀ v ∈ r.visits, b.passes v) : Barred b r r
  /-- A name is stopped at, and those before it pass. -/
  | stopped {r : Run σ} (before after : List Visit) (v : Visit) (s : σ)
      (visits : r.visits = before ++ v :: after) (passes : ∀ u ∈ before, b.passes u)
      (stops : b.stops v) :
      Barred b r ⟨before ++ [⟨v.depth, v.name, b.step⟩], .error (b.stop v.name), s⟩

namespace Barred

variable {b : Barrier} {free barred : Run σ}

/-- **Names in front that pass change nothing**, whatever is made of what the
run says. -/
theorem behind {vs : List Visit} (hvs : ∀ v ∈ vs, b.passes v)
    {f : Except Stop (List Text) → Except Stop (List Text)} (hf : ∀ e, f (.error e) = .error e)
    (h : Barred b free barred) :
    Barred b ⟨vs ++ free.visits, f free.outcome, free.source⟩
      ⟨vs ++ barred.visits, f barred.outcome, barred.source⟩ := by
  cases h with
  | same passes =>
    refine .same fun v hv => ?_
    rcases List.mem_append.1 hv with hv | hv
    · exact hvs v hv
    · exact passes v hv
  | stopped before after v s visits passes stops =>
    rw [hf, ← List.append_assoc vs before]
    refine .stopped (vs ++ before) after v s ?_ (fun u hu => ?_) stops
    · rw [visits, List.append_assoc]
    · rcases List.mem_append.1 hu with hu | hu
      · exact hvs u hu
      · exact passes u hu

/-- A terminal in front changes nothing. -/
theorem said (t : Text) (h : Barred b free barred) : Barred b (free.said t) (barred.said t) :=
  h.behind (List.forall_mem_nil b.passes) fun _ => rfl

/-- A choice in front changes nothing, if it passes. -/
theorem chose {depth : Nat} {name : Text} {c : Choice} (hpasses : b.passes ⟨depth, name, .chose c⟩)
    (h : Barred b free barred) :
    Barred b ⟨⟨depth, name, .chose c⟩ :: free.visits, free.outcome, free.source⟩
      ⟨⟨depth, name, .chose c⟩ :: barred.visits, barred.outcome, barred.source⟩ :=
  h.behind (List.forall_mem_singleton.2 hpasses) (f := id) fun _ => rfl

/-- **Runs in a row are barred in a row.** Where the first is stopped, the
second is not run, whatever follows in the free run. -/
theorem andThen {next next' : σ → Run σ} (h : Barred b free barred)
    (hnext : ∀ s, Barred b (next s) (next' s)) :
    Barred b (free.andThen next) (barred.andThen next') := by
  cases h with
  | same passes =>
    cases ho : free.outcome with
    | error stop =>
      rw [andThen_of_error ho, andThen_of_error ho]
      exact .same passes
    | ok ts =>
      rw [andThen_of_ok ho, andThen_of_ok ho]
      exact (hnext free.source).behind passes fun _ => rfl
  | stopped before after v s visits passes stops =>
    rw [andThen_of_error (e := b.stop v.name) rfl next']
    cases ho : free.outcome with
    | error stop =>
      rw [andThen_of_error ho]
      exact .stopped before after v s visits passes stops
    | ok ts =>
      rw [andThen_of_ok ho]
      refine .stopped before (after ++ (next free.source).visits) v s ?_ passes stops
      rw [visits, List.append_assoc, List.cons_append]

/-- **A body is barred as its references are.** -/
theorem ofBody {expand expand' : Text → σ → Run σ} (body : List Symbol)
    (h : ∀ name, Symbol.reference name ∈ body → ∀ s, Barred b (expand name s) (expand' name s))
    (s : σ) : Barred b (Run.ofBody expand body s) (Run.ofBody expand' body s) := by
  induction body generalizing s with
  | nil => exact .same (List.forall_mem_nil _)
  | cons x body ih =>
    have hrest := ih fun name hname => h name (List.mem_cons_of_mem x hname)
    cases x with
    | terminal t => exact (hrest s).said t
    | reference name => exact (h name List.mem_cons_self s).andThen hrest

/-- **What is read off the names of a barred run comes first in the free
run**, if nothing is read off the name where it is stopped. -/
theorem filterMap_prefix {α : Type} {f : Visit → Option α}
    (hf : ∀ depth name, f ⟨depth, name, b.step⟩ = none) (h : Barred b free barred) :
    barred.visits.filterMap f <+: free.visits.filterMap f := by
  cases h with
  | same passes => exact List.prefix_rfl
  | stopped before after v s visits passes stops =>
    rw [visits, List.filterMap_append, List.filterMap_append,
      List.filterMap_cons_none (hf v.depth v.name), List.prefix_append_right_inj]
    exact List.nil_prefix

end Barred

end Run

end SentenceForge

import Mathlib.Logic.Basic

set_option autoImplicit false

namespace Runs

universe u v w

variable {σ : Type u} {ε : Type v}

-- A machine is a partial step function: none means that the event cannot
-- happen in that state, so a list holding such an event is not a run.
def run (step : σ → ε → Option σ) : σ → List ε → Option σ
  | state, [] => some state
  | state, event :: rest => (step state event).bind fun next => run step next rest

-- Every step taken along the run relates the state before it, its event and
-- the state it leads to by Q. A property of states is a Q that reads only the
-- state reached, a condition on inputs one that does not read it.
def Steps (step : σ → ε → Option σ) (Q : σ → ε → σ → Prop) : σ → List ε → Prop
  | _, [] => True
  | state, event :: rest =>
      ∀ next, step state event = some next → Q state event next ∧ Steps step Q next rest

theorem steps_after (step : σ → ε → Option σ) (Q : σ → ε → σ → Prop) (state middle : σ) (first second : List ε)
    (ran : run step state first = some middle) (all : Steps step Q state (first ++ second)) :
    Steps step Q middle second := by
  induction first generalizing state with
  | nil => exact Option.some.inj ran ▸ all
  | cons event rest ih =>
      obtain ⟨next, taken, remaining⟩ := Option.bind_eq_some_iff.mp ran
      exact ih next remaining (all next taken).2

theorem run_invariant (step : σ → ε → Option σ) (J : σ → Prop) (allowed : ε → Prop)
    (keep : ∀ state event next, J state → allowed event → step state event = some next → J next)
    (state final : σ) (events : List ε) (all : ∀ event ∈ events, allowed event)
    (ran : run step state events = some final) (start : J state) : J final := by
  induction events generalizing state with
  | nil => exact Option.some.inj ran ▸ start
  | cons event rest ih =>
      obtain ⟨next, taken, remaining⟩ := Option.bind_eq_some_iff.mp ran
      exact ih next (fun other later => all other (List.mem_cons_of_mem _ later)) remaining
        (keep state event next start (all event List.mem_cons_self) taken)

-- An invariant under which no event is impossible.
theorem run_total (step : σ → ε → Option σ) (J : σ → Prop)
    (takes : ∀ state event, J state → ∃ next, step state event = some next ∧ J next)
    (state : σ) (events : List ε) (start : J state) : ∃ final, run step state events = some final ∧ J final := by
  induction events generalizing state with
  | nil => exact ⟨state, rfl, start⟩
  | cons event rest ih =>
      obtain ⟨next, taken, invariant⟩ := takes state event start
      obtain ⟨final, ran, last⟩ := ih next invariant
      exact ⟨final, Option.bind_eq_some_iff.mpr ⟨next, taken, ran⟩, last⟩

theorem run_mono (step other : σ → ε → Option σ)
    (same : ∀ state event next, step state event = some next → other state event = some next)
    (state final : σ) (events : List ε) (ran : run step state events = some final) :
    run other state events = some final := by
  induction events generalizing state with
  | nil => exact ran
  | cons event rest ih =>
      obtain ⟨next, taken, remaining⟩ := Option.bind_eq_some_iff.mp ran
      exact Option.bind_eq_some_iff.mpr ⟨next, same state event next taken, ih next remaining⟩

-- A loop that may fail at each element is a run over the elements.
theorem run_fold (step : σ → ε → Option σ) (state : σ) (events : List ε) :
    events.foldlM step state = run step state events := by
  induction events generalizing state with
  | nil => rfl
  | cons event rest ih =>
      rw [List.foldlM_cons, run]
      exact congrArg (Option.bind (step state event)) (funext ih)

-- The rule for a ghost state that the events update along the run.
theorem run_ghost {γ : Type w} (step : σ → ε → Option σ) (ghost : γ → ε → γ) (J : γ → σ → Prop)
    (keep : ∀ told state event next, J told state → step state event = some next → J (ghost told event) next)
    (told : γ) (state final : σ) (events : List ε) (ran : run step state events = some final)
    (start : J told state) : J (events.foldl ghost told) final := by
  induction events generalizing told state with
  | nil => exact Option.some.inj ran ▸ start
  | cons event rest ih =>
      obtain ⟨next, taken, remaining⟩ := Option.bind_eq_some_iff.mp ran
      exact ih (ghost told event) next remaining (keep told state event next start taken)

-- The rule for a relation between a state and the events that led to it.
theorem run_history (step : σ → ε → Option σ) (J : List ε → σ → Prop)
    (keep : ∀ past state event next, J past state → step state event = some next → J (past ++ [event]) next)
    (past : List ε) (state final : σ) (events : List ε) (ran : run step state events = some final)
    (start : J past state) : J (past ++ events) final := by
  have told := run_ghost step (fun past event => past ++ [event]) J keep past state final events ran start
  rwa [List.foldl_append_eq_append, ← List.flatMap_def, List.flatMap_singleton'] at told

theorem run_length_le (step : σ → ε → Option σ) (J : σ → Prop) (allowed : ε → Prop) (work : σ → Nat)
    (keep : ∀ state event next, J state → allowed event → step state event = some next → J next)
    (less : ∀ state event next, J state → allowed event → step state event = some next → work next < work state)
    (state final : σ) (events : List ε) (all : ∀ event ∈ events, allowed event)
    (ran : run step state events = some final) (start : J state) : events.length ≤ work state := by
  induction events generalizing state with
  | nil => exact Nat.zero_le _
  | cons event rest ih =>
      obtain ⟨next, taken, remaining⟩ := Option.bind_eq_some_iff.mp ran
      have first := all event List.mem_cons_self
      have shorter := less state event next start first taken
      have bound := ih next (fun other later => all other (List.mem_cons_of_mem _ later)) remaining
        (keep state event next start first taken)
      rw [List.length_cons]
      omega

-- The rule for a step property that holds exactly under a condition on the
-- step's input, as long as the property itself re-establishes the invariant.
theorem steps_iff (step : σ → ε → Option σ) (J : σ → Prop) (Q C : σ → ε → σ → Prop)
    (exact_step : ∀ state event next, J state → step state event = some next →
      (Q state event next ↔ C state event next))
    (keep : ∀ state event next, J state → step state event = some next → Q state event next → J next)
    (state : σ) (events : List ε) (start : J state) :
    Steps step Q state events ↔ Steps step C state events := by
  induction events generalizing state with
  | nil => exact Iff.rfl
  | cons event rest ih =>
      constructor
      · intro all next taken
        obtain ⟨good, later⟩ := all next taken
        exact ⟨(exact_step state event next start taken).mp good,
          (ih next (keep state event next start taken good)).mp later⟩
      · intro all next taken
        obtain ⟨allowed, later⟩ := all next taken
        have good := (exact_step state event next start taken).mpr allowed
        exact ⟨good, (ih next (keep state event next start taken good)).mpr later⟩

-- An invariant that gives the property at each step it is kept by.
theorem steps_of_invariant (step : σ → ε → Option σ) (J : σ → Prop) (Q : σ → ε → σ → Prop)
    (keep : ∀ state event next, J state → step state event = some next → Q state event next ∧ J next)
    (state : σ) (events : List ε) (start : J state) : Steps step Q state events := by
  induction events generalizing state with
  | nil => trivial
  | cons event rest ih =>
      intro next taken
      obtain ⟨good, invariant⟩ := keep state event next start taken
      exact ⟨good, ih next invariant⟩

theorem run_of_condition (step : σ → ε → Option σ) (J : σ → Prop) (C : σ → ε → σ → Prop)
    (keep : ∀ state event next, J state → step state event = some next → C state event next → J next)
    (state final : σ) (events : List ε) (allowed : Steps step C state events)
    (ran : run step state events = some final) (start : J state) : J final := by
  induction events generalizing state with
  | nil => exact Option.some.inj ran ▸ start
  | cons event rest ih =>
      obtain ⟨next, taken, remaining⟩ := Option.bind_eq_some_iff.mp ran
      obtain ⟨here, later⟩ := allowed next taken
      exact ih next later remaining (keep state event next start taken here)

-- One direction of the rule: the condition on each step carries an invariant
-- which need not follow from the property alone.
theorem steps_of_condition (step : σ → ε → Option σ) (J : σ → Prop) (Q C : σ → ε → σ → Prop)
    (keep : ∀ state event next, J state → step state event = some next → C state event next →
      Q state event next ∧ J next)
    (state : σ) (events : List ε) (start : J state) (allowed : Steps step C state events) :
    Steps step Q state events := by
  induction events generalizing state with
  | nil => trivial
  | cons event rest ih =>
      intro next taken
      obtain ⟨good, invariant⟩ := keep state event next start taken (allowed next taken).1
      exact ⟨good, ih next invariant (allowed next taken).2⟩

end Runs

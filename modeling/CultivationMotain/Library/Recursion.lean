import Mathlib.Logic.Basic

set_option autoImplicit false

namespace Recursion

universe u v

variable {σ : Type u} {ρ : Type v}

-- What one activation of a self-calling routine ends in: it returns, it traps,
-- or its last action is a call of the same routine from a new state.
inductive Verdict (σ : Type u) (ρ : Type v) where
  | done (result : ρ)
  | trap
  | again (next : σ)
deriving DecidableEq, Repr

inductive Outcome (ρ : Type v) where
  | returned (result : ρ)
  | trapped
  | running
deriving DecidableEq, Repr

-- The routine cut off after the given number of nested activations.
def call (body : σ → Verdict σ ρ) : Nat → σ → Outcome ρ
  | 0, _ => .running
  | depth + 1, state =>
      match body state with
      | .done result => .returned result
      | .trap => .trapped
      | .again next => call body depth next

def Returns (body : σ → Verdict σ ρ) (state : σ) (result : ρ) : Prop :=
  ∃ depth, call body depth state = .returned result

theorem returns_done (body : σ → Verdict σ ρ) (state : σ) (result : ρ)
    (ends : body state = .done result) : Returns body state result :=
  ⟨1, by simp only [call, ends]⟩

theorem call_done (body : σ → Verdict σ ρ) (state : σ) (depth : Nat) (result : ρ)
    (ends : body state = .done result) : call body (depth + 1) state = .returned result := by
  simp only [call, ends]

theorem call_trap (body : σ → Verdict σ ρ) (state : σ) (depth : Nat)
    (ends : body state = .trap) : call body (depth + 1) state = .trapped := by
  simp only [call, ends]

-- A set of states that every activation either leaves by trapping or never
-- leaves at all holds no state from which the routine returns.
theorem never_returns (body : σ → Verdict σ ρ) (J : σ → Prop)
    (stays : ∀ state, J state → body state = .trap ∨ ∃ next, body state = .again next ∧ J next)
    (state : σ) (start : J state) (depth : Nat) (result : ρ) : call body depth state ≠ .returned result := by
  induction depth generalizing state with
  | zero => simp [call]
  | succ depth ih =>
      rcases stays state start with traps | ⟨next, again, inside⟩
      · simp [call, traps]
      · simp only [call, again]
        exact ih next inside

end Recursion

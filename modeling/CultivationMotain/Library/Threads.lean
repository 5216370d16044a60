import Mathlib.Data.List.Basic
import CultivationMotain.Library.Runs
import CultivationMotain.Library.Weights

set_option autoImplicit false

namespace Threads

universe u v w

variable {σ : Type u} {π : Type v} {α : Type w}

structure System (σ : Type u) (π : Type v) where
  shared : σ
  threads : List π
deriving DecidableEq, Repr

-- One thread acts on the shared state and moves on from its program point; the
-- other threads stay where they are. none: the action is not possible there.
def step (act : α → σ → π → Option (σ × π)) (system : System σ π) (event : Nat × α) : Option (System σ π) :=
  system.threads[event.1]?.bind fun point =>
    (act event.2 system.shared point).map fun next => ⟨next.1, system.threads.set event.1 next.2⟩

theorem step_cases (act : α → σ → π → Option (σ × π)) (system next : System σ π) (event : Nat × α)
    (taken : step act system event = some next) :
    ∃ point shared moved, system.threads[event.1]? = some point ∧
      act event.2 system.shared point = some (shared, moved) ∧
      next = ⟨shared, system.threads.set event.1 moved⟩ := by
  obtain ⟨point, found, mapped⟩ := Option.bind_eq_some_iff.mp taken
  obtain ⟨⟨shared, moved⟩, acted, rfl⟩ := Option.map_eq_some_iff.mp mapped
  exact ⟨point, shared, moved, found, acted, rfl⟩

theorem mem_set_cases (threads : List π) (index : Nat) (moved point : π) (member : point ∈ threads.set index moved) :
    point = moved ∨ point ∈ threads.eraseIdx index := by
  induction threads generalizing index with
  | nil => cases member
  | cons head rest ih =>
      cases index with
      | zero =>
          rw [List.set_cons_zero, List.mem_cons] at member
          exact member.imp_right fun later => later
      | succ index =>
          rw [List.set_cons_succ, List.mem_cons] at member
          rw [List.eraseIdx_cons_succ, List.mem_cons]
          rcases member with here | later
          · exact Or.inr (Or.inl here)
          · exact (ih index later).imp_right Or.inr

-- The rule for the predicate that an invariant gives every thread.
theorem forall_mem_set (P : π → Prop) (threads : List π) (index : Nat) (moved : π)
    (others : ∀ point ∈ threads.eraseIdx index, P point) (here : P moved) :
    ∀ point ∈ threads.set index moved, P point := by
  intro point member
  rcases mem_set_cases threads index moved point member with rfl | other
  · exact here
  · exact others point other

theorem forall_mem_erase (P : π → Prop) (threads : List π) (index : Nat) (all : ∀ point ∈ threads, P point) :
    ∀ point ∈ threads.eraseIdx index, P point :=
  fun point other => all point (List.mem_of_mem_eraseIdx other)

-- The rule for an invariant of the shared state and the threads.
theorem run_invariant (act : α → σ → π → Option (σ × π)) (J : σ → List π → Prop)
    (keep : ∀ action shared next threads (index : Nat) point moved, J shared threads → threads[index]? = some point →
      act action shared point = some (next, moved) → J next (threads.set index moved))
    (system final : System σ π) (events : List (Nat × α)) (ran : Runs.run (step act) system events = some final)
    (start : J system.shared system.threads) : J final.shared final.threads := by
  refine Runs.run_invariant (step act) (fun system => J system.shared system.threads) (fun _ => True)
    (fun before event after holds _ taken => ?_) system final events (fun _ _ => trivial) ran start
  obtain ⟨point, shared, moved, found, acted, rfl⟩ := step_cases act before after event taken
  exact keep event.2 before.shared shared before.threads event.1 point moved holds found acted

-- The rule for how long a run can be: every step leaves less to do, which is
-- shared work and the work of each thread.
theorem run_length_le (act : α → σ → π → Option (σ × π)) (J : σ → List π → Prop) (allowed : α → Prop) (work : σ → Nat)
    (weight : π → Nat)
    (keep : ∀ action shared next threads (index : Nat) point moved, J shared threads → threads[index]? = some point →
      act action shared point = some (next, moved) → J next (threads.set index moved))
    (less : ∀ action shared next threads (index : Nat) point moved, J shared threads → allowed action →
      threads[index]? = some point → act action shared point = some (next, moved) →
      work next + weight moved < work shared + weight point)
    (system final : System σ π) (events : List (Nat × α)) (all : ∀ event ∈ events, allowed event.2)
    (ran : Runs.run (step act) system events = some final) (start : J system.shared system.threads) :
    events.length ≤ work system.shared + Weights.weigh weight system.threads := by
  refine Runs.run_length_le (step act) (fun system => J system.shared system.threads) (fun event => allowed event.2)
    (fun system => work system.shared + Weights.weigh weight system.threads)
      (fun before event after holds _ taken => ?_)
    (fun before event after holds may taken => ?_) system final events all ran start
  · obtain ⟨point, shared, moved, found, acted, rfl⟩ := step_cases act before after event taken
    exact keep event.2 before.shared shared before.threads event.1 point moved holds found acted
  · obtain ⟨point, shared, moved, found, acted, rfl⟩ := step_cases act before after event taken
    have smaller := less event.2 before.shared shared before.threads event.1 point moved holds may found acted
    have moves := Weights.weigh_set weight before.threads event.1 point moved found
    dsimp only
    omega

end Threads

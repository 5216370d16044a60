import CultivationMotain.Library.Recursion
import Mathlib.Data.List.Basic

set_option autoImplicit false

namespace CultivationMotain.SocketGame

open Recursion

variable {Address : Type}

-- The variables of the loop; tried is a ghost, the addresses of the attempts so
-- far.
structure Walk (Address : Type) where
  isConnect : Bool
  address : List Address
  tried : List Address
deriving DecidableEq, Repr

variable (accepts : Nat → Address → Bool)

-- accepts is the outcome of each attempt of connectToAddress. The array stays as
-- it is.
def walkBody (walk : Walk Address) : Verdict (Walk Address) (Walk Address) :=
  if walk.isConnect then .done walk
  else
    match walk.address with
    | [] => .done walk
    | data :: _ =>
        .again { walk with
          isConnect := accepts walk.tried.length data
          tried := walk.tried ++ [data] }

-- The loop runs for at most the given number of turns.
def connectWithService (socketConnected : Bool) (addresses : List Address) (turns : Nat) : Outcome (Walk Address) :=
  if !socketConnected then call (walkBody accepts) turns ⟨false, addresses, []⟩
  else .returned ⟨socketConnected, addresses, []⟩

structure WalkedInOrder (addresses : List Address) (walk : Walk Address) : Prop where
  order : walk.tried <+: addresses
  stops : ∀ (attempt : Nat) data, walk.tried[attempt]? = some data → accepts attempt data = true →
    attempt + 1 = walk.tried.length
  exhausts : walk.isConnect = false → walk.tried = addresses
  result : walk.isConnect = true ↔
    ∃ (attempt : Nat) (data : Address), walk.tried[attempt]? = some data ∧ accepts attempt data = true

def AddressesWalked (addresses : List Address) : Prop :=
  ∃ turns walk, connectWithService accepts false addresses turns = .returned walk ∧ WalkedInOrder accepts addresses walk

-- The first attempt that is accepted, if the first address is tried over and over.
def AcceptedAt (first : Address) (count : Nat) : Prop :=
  (∀ attempt, attempt < count → accepts attempt first = false) ∧ accepts count first = true

def FirstAccepted (addresses : List Address) : Prop :=
  addresses = [] ∨
    ∃ first count, AcceptedAt accepts first count ∧ List.replicate (count + 1) first <+: addresses

variable (first : Address) (rest : List Address)

theorem walk_turn (count : Nat) :
    walkBody accepts ⟨false, first :: rest, List.replicate count first⟩ =
      .again ⟨accepts count first, first :: rest, List.replicate (count + 1) first⟩ := by
  rw [walkBody, if_neg Bool.false_ne_true, List.replicate_succ']
  simp only [List.length_replicate]

theorem walk_returned (turns count : Nat) (walk : Walk Address)
    (refused : ∀ attempt, attempt < count → accepts attempt first = false)
    (returned : call (walkBody accepts) turns ⟨false, first :: rest, List.replicate count first⟩ = .returned walk) :
    ∃ last, AcceptedAt accepts first last ∧ walk = ⟨true, first :: rest, List.replicate (last + 1) first⟩ := by
  induction turns generalizing count with
  | zero => cases returned
  | succ turns ih =>
      simp only [call, walk_turn] at returned
      cases outcome : accepts count first with
      | true =>
          rw [outcome] at returned
          cases turns with
          | zero => cases returned
          | succ turns =>
              cases returned
              exact ⟨count, ⟨refused, outcome⟩, rfl⟩
      | false =>
          rw [outcome] at returned
          refine ih (count + 1) (fun attempt before => ?_) returned
          rcases Nat.lt_succ_iff_lt_or_eq.mp before with earlier | rfl
          · exact refused attempt earlier
          · exact outcome

theorem walk_returns (left count : Nat) (walked : AcceptedAt accepts first (count + left)) :
    call (walkBody accepts) (left + 2) ⟨false, first :: rest, List.replicate count first⟩ =
      .returned ⟨true, first :: rest, List.replicate (count + left + 1) first⟩ := by
  induction left generalizing count with
  | zero =>
      have outcome : accepts count first = true := walked.2
      simp only [call, walk_turn, outcome]
      rfl
  | succ left ih =>
      have outcome : accepts count first = false := walked.1 count (by omega)
      have later := ih (count + 1) (by rwa [Nat.add_assoc, Nat.add_comm 1])
      rw [call, walk_turn, outcome]
      dsimp only
      rw [later, Nat.add_assoc count 1, Nat.add_comm 1]

theorem replicated_walk (last : Nat) (accepted : AcceptedAt accepts first last)
    (order : List.replicate (last + 1) first <+: first :: rest) :
    WalkedInOrder accepts (first :: rest) ⟨true, first :: rest, List.replicate (last + 1) first⟩ where
  order := order
  stops attempt data found outcome := by
    obtain ⟨below, same⟩ := List.getElem?_eq_some_iff.mp found
    rw [List.length_replicate] at below
    rw [List.getElem_replicate] at same
    by_cases earlier : attempt < last
    · rw [← same, accepted.1 attempt earlier] at outcome
      cases outcome
    · rw [List.length_replicate]
      omega
  exhausts unconnected := by cases unconnected
  result := by
    refine iff_of_true rfl ⟨last, first, ?_, accepted.2⟩
    rw [List.getElem?_replicate, if_pos (Nat.lt_succ_self last)]

theorem addresses_walked_iff (addresses : List Address) :
    AddressesWalked accepts addresses ↔ FirstAccepted accepts addresses := by
  cases addresses with
  | nil =>
      refine iff_of_true ⟨1, ⟨false, [], []⟩, rfl, List.prefix_refl _, ?_, fun _ => rfl, ?_⟩ (.inl rfl)
      · intro attempt data absent
        cases absent
      · refine iff_of_false Bool.false_ne_true ?_
        rintro ⟨attempt, data, absent, _⟩
        cases absent
  | cons first rest =>
      constructor
      · rintro ⟨turns, walk, returned, walked⟩
        obtain ⟨last, accepted, rfl⟩ := walk_returned accepts first rest turns 0 walk
          (fun _ absent => absurd absent (Nat.not_lt_zero _)) returned
        exact .inr ⟨first, last, accepted, walked.order⟩
      · rintro (empty | ⟨other, last, accepted, order⟩)
        · cases empty
        · obtain rfl : other = first := (List.cons_prefix_cons.mp order).1
          have returned := walk_returns accepts other rest last 0 (by rwa [Nat.zero_add])
          rw [Nat.zero_add] at returned
          exact ⟨last + 2, _, returned, replicated_walk accepts other rest last accepted order⟩

-- The first of two addresses is refused each time, and tried for ever.
theorem refused_address_loops :
    ¬ ∀ (accepts : Nat → Nat → Bool) (addresses : List Nat), AddressesWalked accepts addresses := by
  intro all
  obtain ⟨turns, walk, returned, _⟩ := all (fun _ data => data == 2) [1, 2]
  obtain ⟨last, accepted, _⟩ := walk_returned _ 1 [2] turns 0 walk (fun _ _ => rfl) returned
  exact Bool.false_ne_true accepted.2

end CultivationMotain.SocketGame

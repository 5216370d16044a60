import Mathlib.Data.List.Basic
import Mathlib.Data.List.Forall2

set_option autoImplicit false

namespace BatchUpdates

universe u v w

variable {α : Type u} {β : Type v} {κ : Type w}

-- The elements whose positions are not gone, with their positions.
def survivors (gone : Nat → Bool) (elements : List α) (offset : Nat) : List (α × Nat) :=
  (elements.zipIdx offset).filter fun pair => !gone pair.2

-- A batch of updates gives the new positions: an inserted one is made afresh,
-- every other one takes the next element that was kept. It fails unless the
-- kept elements are exactly enough.
def splice (inserted : Nat → Bool) (fresh : Nat → β → Option α) (join : Nat → κ → β → Option α) :
    Nat → List κ → List β → Option (List α)
  | _, kept, [] => if kept.isEmpty then some [] else none
  | position, kept, target :: targets =>
      if inserted position then do
        let element ← fresh position target
        let rest ← splice inserted fresh join (position + 1) kept targets
        some (element :: rest)
      else do
        let element ← kept.head?.bind fun first => join position first target
        let rest ← splice inserted fresh join (position + 1) kept.tail targets
        some (element :: rest)

theorem survivors_cons_gone (gone : Nat → Bool) (element : α) (elements : List α) (offset : Nat)
    (leaves : gone offset = true) :
    survivors gone (element :: elements) offset = survivors gone elements (offset + 1) := by
  simp [survivors, List.zipIdx_cons, leaves]

theorem survivors_cons_kept (gone : Nat → Bool) (element : α) (elements : List α) (offset : Nat)
    (stays : gone offset = false) :
    survivors gone (element :: elements) offset = (element, offset) :: survivors gone elements (offset + 1) := by
  simp [survivors, List.zipIdx_cons, stays]

theorem mem_survivors (gone : Nat → Bool) (elements : List α) (pair : α × Nat) :
    pair ∈ survivors gone elements 0 ↔ elements[pair.2]? = some pair.1 ∧ gone pair.2 = false := by
  simp [survivors, List.mem_filter, List.mem_zipIdx_iff_getElem?]

theorem not_listed_iff {δ : Type w} [DecidableEq δ] (listed : List δ) (element : δ) :
    listed.contains element = false ↔ element ∉ listed := by
  rw [Bool.eq_false_iff, ne_eq, List.contains_iff_mem]

theorem survivors_map (f : α → β) (gone : Nat → Bool) (elements : List α) (offset : Nat) :
    survivors gone (elements.map f) offset = (survivors gone elements offset).map fun pair => (f pair.1, pair.2) := by
  induction elements generalizing offset with
  | nil => rfl
  | cons element elements ih =>
      rw [List.map_cons]
      by_cases leaves : gone offset = true
      · rw [survivors_cons_gone gone _ _ offset leaves, survivors_cons_gone gone _ _ offset leaves, ih]
      · have stays := Bool.eq_false_iff.mpr leaves
        rw [survivors_cons_kept gone _ _ offset stays, survivors_cons_kept gone _ _ offset stays, ih, List.map_cons]

theorem related_right (R : α → β → Prop) (first : List α) (second : List β) (related : List.Forall₂ R first second)
    (two : β) (member : two ∈ second) : ∃ one ∈ first, R one two := by
  induction related with
  | nil => cases member
  | @cons one head first second here _ ih =>
      rcases List.mem_cons.mp member with rfl | later
      · exact ⟨one, List.mem_cons_self, here⟩
      · obtain ⟨other, other_in, there⟩ := ih later
        exact ⟨other, List.mem_cons_of_mem one other_in, there⟩

theorem related_at (R : α → β → Prop) (first : List α) (second : List β) (related : List.Forall₂ R first second)
    (index : Nat) (one : α) (found : first[index]? = some one) : ∃ two, second[index]? = some two ∧ R one two := by
  induction related generalizing index with
  | nil => cases found
  | cons here _ ih =>
      cases index with
      | zero =>
          cases found
          exact ⟨_, rfl, here⟩
      | succ index => exact ih index found

theorem related_members (R S : α → β → Prop) (first : List α) (second : List β)
    (related : List.Forall₂ R first second)
    (implies : ∀ one ∈ first, ∀ two ∈ second, R one two → S one two) : List.Forall₂ S first second := by
  induction related with
  | nil => exact .nil
  | cons here _ ih =>
      exact .cons (implies _ List.mem_cons_self _ List.mem_cons_self here) (ih fun one one_in two two_in =>
        implies one (List.mem_cons_of_mem _ one_in) two (List.mem_cons_of_mem _ two_in))

theorem related_congr (R S : α → β → Prop) (first : List α) (second : List β)
    (same : ∀ one, ∀ two ∈ second, R one two ↔ S one two) :
    List.Forall₂ R first second ↔ List.Forall₂ S first second :=
  ⟨fun related => related_members R S first second related fun one _ two member => (same one two member).mp,
    fun related => related_members S R first second related fun one _ two member => (same one two member).mpr⟩

theorem related_of_map {δ : Type w} (f : α → δ) (g : β → δ) (first : List α) (second : List β)
    (same : first.map f = second.map g) : List.Forall₂ (fun one two => f one = g two) first second := by
  rw [← List.forall₂_eq_eq_eq] at same
  exact List.forall₂_map_right_iff.mp (List.forall₂_map_left_iff.mp same)

theorem related_and_right (p : β → Prop) (R : α → β → Prop) (first : List α) (second : List β) :
    List.Forall₂ (fun one two => p two ∧ R one two) first second ↔
      (∀ two ∈ second, p two) ∧ List.Forall₂ R first second := by
  constructor
  · intro related
    refine ⟨fun two member => ?_, related_members _ R first second related fun _ _ _ _ both => both.2⟩
    obtain ⟨_, _, holds, _⟩ := related_right _ first second related two member
    exact holds
  · rintro ⟨all, related⟩
    exact related_members R _ first second related fun _ _ two member holds => ⟨all two member, holds⟩

theorem survivors_all (elements : List α) (offset : Nat) : survivors (fun _ => true) elements offset = [] :=
  List.filter_eq_nil_iff.mpr fun _ _ kept => nomatch kept

theorem bind_cons_iff (S : List α → Prop) (first : Option α) (rest : Option (List α)) :
    (∃ result, (do let element ← first; let others ← rest; some (element :: others)) = some result ∧ S result) ↔
      ∃ element others, first = some element ∧ rest = some others ∧ S (element :: others) := by
  constructor
  · rintro ⟨result, made, good⟩
    obtain ⟨element, made_first, made⟩ := Option.bind_eq_some_iff.mp made
    obtain ⟨others, made_rest, made⟩ := Option.bind_eq_some_iff.mp made
    cases made
    exact ⟨element, others, made_first, made_rest, good⟩
  · rintro ⟨element, others, rfl, rfl, good⟩
    exact ⟨element :: others, rfl, good⟩

-- The new elements stand for their targets if and only if the fresh ones do
-- and the kept ones match the targets that are not inserted, one by one.
theorem splice_iff (R : α → β → Prop) (inserted : Nat → Bool) (fresh : Nat → β → Option α)
    (join : Nat → κ → β → Option α) (position : Nat) (kept : List κ) (targets : List β) :
    (∃ result, splice inserted fresh join position kept targets = some result ∧ List.Forall₂ R result targets) ↔
      (∀ pair ∈ targets.zipIdx position, inserted pair.2 = true →
        ∃ element, fresh pair.2 pair.1 = some element ∧ R element pair.1) ∧
      List.Forall₂ (fun first pair => ∃ element, join pair.2 first pair.1 = some element ∧ R element pair.1) kept
        (survivors inserted targets position) := by
  induction targets generalizing position kept with
  | nil =>
      cases kept with
      | nil => exact iff_of_true ⟨[], rfl, .nil⟩ ⟨fun pair absent => (nomatch absent), .nil⟩
      | cons first kept =>
          refine iff_of_false ?_ ?_
          · rintro ⟨result, absent, _⟩
            cases absent
          · rintro ⟨_, absent⟩
            cases absent
  | cons target targets ih =>
      rw [List.zipIdx_cons, List.forall_mem_cons]
      by_cases made : inserted position = true
      · rw [splice, if_pos made, survivors_cons_gone inserted target targets position made]
        refine (bind_cons_iff (fun result => List.Forall₂ R result (target :: targets)) _ _).trans ?_
        constructor
        · rintro ⟨element, others, first, rest, related⟩
          obtain ⟨here, there⟩ := List.forall₂_cons.mp related
          obtain ⟨later, matched⟩ := (ih (position + 1) kept).mp ⟨others, rest, there⟩
          exact ⟨⟨fun _ => ⟨element, first, here⟩, later⟩, matched⟩
        · rintro ⟨⟨now, later⟩, matched⟩
          obtain ⟨element, first, here⟩ := now made
          obtain ⟨others, rest, there⟩ := (ih (position + 1) kept).mpr ⟨later, matched⟩
          exact ⟨element, others, first, rest, .cons here there⟩
      · have stays := Bool.eq_false_iff.mpr made
        rw [splice, if_neg made, survivors_cons_kept inserted target targets position stays]
        cases kept with
        | nil =>
            refine iff_of_false ?_ ?_
            · rintro ⟨result, absent, _⟩
              cases absent
            · rintro ⟨_, absent⟩
              cases absent
        | cons first kept =>
            refine (bind_cons_iff (fun result => List.Forall₂ R result (target :: targets)) _ _).trans ?_
            constructor
            · rintro ⟨element, others, joined, rest, related⟩
              obtain ⟨here, there⟩ := List.forall₂_cons.mp related
              obtain ⟨later, matched⟩ := (ih (position + 1) kept).mp ⟨others, rest, there⟩
              exact ⟨⟨fun now => absurd now made, later⟩, .cons ⟨element, joined, here⟩ matched⟩
            · rintro ⟨⟨_, later⟩, matched⟩
              obtain ⟨⟨element, joined, here⟩, matched⟩ := List.forall₂_cons.mp matched
              obtain ⟨others, rest, there⟩ := (ih (position + 1) kept).mpr ⟨later, matched⟩
              exact ⟨element, others, joined, rest, .cons here there⟩

end BatchUpdates

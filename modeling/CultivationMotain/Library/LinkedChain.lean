import Mathlib.Data.List.Infix
import Mathlib.Logic.Function.Basic

set_option autoImplicit false

namespace LinkedChain

universe u

variable {α : Type u}

-- The elements in order, with the links between them written or still missing.
def Strung (next : α → Option α) : List α → Prop
  | [] => True
  | [last] => next last = none
  | first :: second :: rest => (next first = none ∨ next first = some second) ∧ Strung next (second :: rest)

def Follows (items : List α) (before after : α) : Prop := [before, after] <:+: items

def Gap (next : α → Option α) (items : List α) (element : α) : Prop := next element = none ∧ element ∈ items.dropLast

variable (next : α → Option α)

theorem strung_cons (first : α) (rest : List α) (strung : Strung next (first :: rest)) : Strung next rest := by
  cases rest with
  | nil => trivial
  | cons second rest => exact strung.2

theorem strung_congr (other : α → Option α) (items : List α) (same : ∀ item ∈ items, other item = next item) :
    Strung other items ↔ Strung next items := by
  induction items with
  | nil => exact Iff.rfl
  | cons first rest ih =>
      have later := ih fun item member => same item (List.mem_cons_of_mem _ member)
      cases rest with
      | nil => rw [Strung, Strung, same first List.mem_cons_self]
      | cons second rest => rw [Strung, Strung, same first List.mem_cons_self, later]

theorem strung_last (items : List α) (last : α) (strung : Strung next items) (found : items.getLast? = some last) :
    next last = none := by
  induction items with
  | nil => cases found
  | cons first rest ih =>
      cases rest with
      | nil =>
          cases found
          exact strung
      | cons second rest =>
          rw [List.getLast?_cons_cons] at found
          exact ih strung.2 found

-- A link that is written leads to the element behind.
theorem strung_head (first after : α) (rest : List α) (strung : Strung next (first :: rest))
    (written : next first = some after) : ∃ later, rest = after :: later := by
  cases rest with
  | nil => exact (Option.some_ne_none after (written.symm.trans strung)).elim
  | cons second rest =>
      rcases strung.1 with missing | link
      · exact (Option.some_ne_none after (written.symm.trans missing)).elim
      · cases Option.some.inj (written.symm.trans link)
        exact ⟨rest, rfl⟩

theorem strung_append (items more : List α) (strung : Strung next items) (added : Strung next more) :
    Strung next (items ++ more) := by
  induction items with
  | nil => exact added
  | cons first rest ih =>
      have later := ih (strung_cons next first rest strung)
      cases rest with
      | nil =>
          cases more with
          | nil => exact strung
          | cons second more => exact ⟨Or.inl strung, added⟩
      | cons second rest => exact ⟨strung.1, later⟩

theorem follows_mem (items : List α) (before after : α) (follows : Follows items before after) :
    before ∈ items ∧ after ∈ items :=
  ⟨follows.subset (List.mem_cons_self), follows.subset (List.mem_cons_of_mem _ List.mem_cons_self)⟩

theorem follows_append (items more : List α) (before after : α) (follows : Follows items before after) :
    Follows (items ++ more) before after := follows.trans (List.prefix_append items more).isInfix

theorem follows_cons_cons (first second : α) (rest : List α) (before after : α) :
    Follows (first :: second :: rest) before after ↔
      before = first ∧ after = second ∨ Follows (second :: rest) before after := by
  rw [Follows, List.infix_cons_iff, List.cons_prefix_cons, List.cons_prefix_cons]
  exact or_congr_left (and_congr_right fun _ => and_iff_left (List.nil_prefix))

theorem not_follows_one (only before after : α) : ¬ Follows [only] before after := by
  intro follows
  have short := follows.length_le
  simp at short

theorem follows_drop (items : List α) (before after : α) (follows : Follows items before after) :
    before ∈ items.dropLast := by
  induction items with
  | nil => exact (List.not_mem_nil (follows_mem [] before after follows).1).elim
  | cons first rest ih =>
      cases rest with
      | nil => exact (not_follows_one first before after follows).elim
      | cons second rest =>
          rw [List.dropLast_cons_cons]
          rcases (follows_cons_cons first second rest before after).mp follows with ⟨rfl, -⟩ | later
          · exact List.mem_cons_self
          · exact List.mem_cons_of_mem _ (ih later)

theorem strung_link [DecidableEq α] (items : List α) (before after : α) (distinct : items.Nodup)
    (strung : Strung next items)
    (follows : Follows items before after) : Strung (Function.update next before (some after)) items := by
  induction items with
  | nil => trivial
  | cons first rest ih =>
      cases rest with
      | nil => exact (not_follows_one first before after follows).elim
      | cons second rest =>
          obtain ⟨outside, distinct⟩ := List.nodup_cons.mp distinct
          rcases (follows_cons_cons first second rest before after).mp follows with ⟨rfl, rfl⟩ | later
          · refine ⟨Or.inr (Function.update_self _ _ _), ?_⟩
            refine (strung_congr next _ _ fun item member => ?_).mpr strung.2
            exact Function.update_of_ne (ne_of_mem_of_not_mem member outside) _ _
          · refine ⟨?_, ih distinct strung.2 later⟩
            have different : first ≠ before := fun same => outside (same ▸ (follows_mem _ _ _ later).1)
            rw [Function.update_of_ne different]
            exact strung.1

theorem gap_congr (other : α → Option α) (items : List α) (same : ∀ item ∈ items, other item = next item)
    (element : α) :
    Gap other items element ↔ Gap next items element :=
  and_congr_left fun member => by rw [same element (List.dropLast_subset _ member)]

theorem gap_link [DecidableEq α] (items : List α) (before after element : α) :
    Gap (Function.update next before (some after)) items element ↔ element ≠ before ∧ Gap next items element := by
  by_cases same : element = before
  · subst same
    rw [Gap, Function.update_self]
    exact iff_of_false (fun gap => Option.some_ne_none after gap.1) (fun gap => gap.1 rfl)
  · rw [Gap, Function.update_of_ne same]
    exact (and_iff_right same).symm

theorem gap_cons (first second : α) (rest : List α) (distinct : (first :: second :: rest).Nodup) (element : α)
    (written : next first ≠ none) : Gap next (first :: second :: rest) element ↔ Gap next (second :: rest) element := by
  rw [Gap, Gap, List.dropLast_cons_cons, List.mem_cons]
  refine and_congr_right fun absent => or_iff_right ?_
  rintro rfl
  exact written absent

theorem not_gap_last (items : List α) (last : α) (distinct : items.Nodup) (found : items.getLast? = some last) :
    ¬ Gap next items last := by
  obtain ⟨init, rfl⟩ := List.getLast?_eq_some_iff.mp found
  rintro ⟨-, member⟩
  rw [List.dropLast_concat] at member
  exact (List.nodup_append.mp distinct).2.2 last member last List.mem_cons_self rfl

theorem gap_append (items more : List α) (last : α) (found : items.getLast? = some last) (nonempty : more ≠ [])
    (missing : next last = none) (full : ∀ element, ¬ Gap next more element) (element : α) :
    Gap next (items ++ more) element ↔ element = last ∨ Gap next items element := by
  obtain ⟨init, rfl⟩ := List.getLast?_eq_some_iff.mp found
  rw [Gap, Gap, List.dropLast_append_of_ne_nil nonempty, List.dropLast_concat]
  constructor
  · rintro ⟨absent, member⟩
    rcases List.mem_append.mp member with old | added
    · rcases List.mem_append.mp old with early | here
      · exact Or.inr ⟨absent, early⟩
      · exact Or.inl (List.mem_singleton.mp here)
    · exact (full element ⟨absent, added⟩).elim
  · rintro (rfl | ⟨absent, early⟩)
    · exact ⟨missing, List.mem_append_left _ (List.mem_append_right _ List.mem_cons_self)⟩
    · exact ⟨absent, List.mem_append_left _ (List.mem_append_left _ early)⟩

-- Without gaps the list can be read off the links.
theorem chain_of_no_gap (items : List α) (strung : Strung next items) (full : ∀ item, ¬ Gap next items item) :
    items.IsChain fun before after => next before = some after := by
  induction items with
  | nil => exact List.IsChain.nil
  | cons first rest ih =>
      cases rest with
      | nil => exact List.IsChain.singleton first
      | cons second rest =>
          rw [List.isChain_cons_cons]
          refine ⟨?_, ih strung.2 fun item gap => full item ⟨gap.1, ?_⟩⟩
          · rcases strung.1 with missing | link
            · exact (full first ⟨missing, by rw [List.dropLast_cons_cons]; exact List.mem_cons_self⟩).elim
            · exact link
          · rw [List.dropLast_cons_cons]
            exact List.mem_cons_of_mem _ gap.2

end LinkedChain

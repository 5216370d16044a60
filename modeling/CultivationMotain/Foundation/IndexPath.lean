import Mathlib.Data.List.Basic

set_option autoImplicit false

namespace CultivationMotain.Foundation

structure IndexPath where
  sectionIndex : Nat
  row : Nat
deriving DecidableEq, Repr

variable {α : Type}

def elementAt (sections : List (List α)) (path : IndexPath) : Option α :=
  sections[path.sectionIndex]?.bind fun items => items[path.row]?

theorem element_at_some (sections : List (List α)) (path : IndexPath) (element : α) :
    elementAt sections path = some element ↔
      ∃ items, sections[path.sectionIndex]? = some items ∧ items[path.row]? = some element :=
  Option.bind_eq_some_iff

theorem element_at_map {β : Type} (f : α → β) (sections : List (List α)) (path : IndexPath) :
    elementAt (sections.map fun items => items.map f) path = (elementAt sections path).map f := by
  unfold elementAt
  rw [List.getElem?_map]
  cases sections[path.sectionIndex]? with
  | none => rfl
  | some items => simp

theorem element_at_mem (sections : List (List α)) (path : IndexPath) (element : α)
    (found : elementAt sections path = some element) : element ∈ sections.flatten := by
  obtain ⟨items, section_at, item_at⟩ := (element_at_some sections path element).mp found
  exact List.mem_flatten.mpr ⟨items, List.mem_of_getElem? section_at, List.mem_of_getElem? item_at⟩

end CultivationMotain.Foundation

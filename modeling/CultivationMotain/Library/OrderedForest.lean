import Mathlib.Data.List.Nodup

set_option autoImplicit false

namespace OrderedForest

universe u

-- Ordered trees by their first root: its label, the forest below it, and the
-- trees after it.
inductive Forest (α : Type u) where
  | nil
  | cons (label : α) (children rest : Forest α)
deriving DecidableEq, Repr

variable {α : Type u}

namespace Forest

def roots : Forest α → List α
  | .nil => []
  | .cons label _ rest => label :: rest.roots

def labels : Forest α → List α
  | .nil => []
  | .cons label children rest => label :: (children.labels ++ rest.labels)

def height : Forest α → Nat
  | .nil => 0
  | .cons _ children rest => max (children.height + 1) rest.height

-- The tree with the label and the forest below it is somewhere in the forest.
inductive Has (label : α) (below : Forest α) : Forest α → Prop where
  | here (rest : Forest α) : Has label below (.cons label below rest)
  | inside (other : α) (children rest : Forest α) (has : Has label below children) :
      Has label below (.cons other children rest)
  | later (other : α) (children rest : Forest α) (has : Has label below rest) :
      Has label below (.cons other children rest)

theorem mem_labels (label other : α) (children rest : Forest α) :
    label ∈ (Forest.cons other children rest).labels ↔
      label = other ∨ label ∈ children.labels ∨ label ∈ rest.labels := by
  rw [labels, List.mem_cons, List.mem_append]

structure Distinct (label : α) (children rest : Forest α) : Prop where
  below : children.labels.Nodup
  later : rest.labels.Nodup
  root_children : label ∉ children.labels
  root_rest : label ∉ rest.labels
  apart : ∀ below ∈ children.labels, below ∉ rest.labels

theorem distinct_of_nodup (label : α) (children rest : Forest α)
    (nodup : (Forest.cons label children rest).labels.Nodup) : Distinct label children rest := by
  obtain ⟨fresh, both⟩ := List.nodup_cons.mp nodup
  obtain ⟨below, later, apart⟩ := List.nodup_append.mp both
  exact {
    below := below
    later := later
    root_children := fun member => fresh (List.mem_append_left _ member)
    root_rest := fun member => fresh (List.mem_append_right _ member)
    apart := fun one first second => apart one first one second rfl }

theorem roots_subset (forest : Forest α) : forest.roots ⊆ forest.labels := by
  induction forest with
  | nil => exact List.Subset.refl []
  | cons label children rest _ ih =>
      intro root member
      rcases List.mem_cons.mp member with rfl | later
      · exact List.mem_cons_self
      · exact List.mem_cons_of_mem _ (List.mem_append_right _ (ih later))

theorem has_labels (forest below : Forest α) (label : α) (has : Has label below forest) :
    below.labels ⊆ forest.labels := by
  intro other member
  induction has with
  | here rest => exact (mem_labels other label below rest).mpr (.inr (.inl member))
  | inside root children rest _ ih => exact (mem_labels other root children rest).mpr (.inr (.inl ih))
  | later root children rest _ ih => exact (mem_labels other root children rest).mpr (.inr (.inr ih))

section Prune

variable [DecidableEq α]

def prune (label : α) : Forest α → Forest α
  | .nil => .nil
  | .cons other children rest =>
      if other = label then rest.prune label else .cons other (children.prune label) (rest.prune label)

theorem prune_roots (label : α) (forest : Forest α) :
    (forest.prune label).roots = forest.roots.filter (· ≠ label) := by
  induction forest with
  | nil => rfl
  | cons other children rest _ ih =>
      rw [prune, roots]
      by_cases same : other = label
      · rw [if_pos same, ih, List.filter_cons_of_neg (by simpa using same)]
      · rw [if_neg same, roots, ih, List.filter_cons_of_pos (by simpa using same)]

theorem prune_gone (label : α) (forest : Forest α) : label ∉ (forest.prune label).labels := by
  induction forest with
  | nil => exact List.not_mem_nil
  | cons other children rest ih_children ih_rest =>
      rw [prune]
      by_cases same : other = label
      · rwa [if_pos same]
      · rw [if_neg same, mem_labels]
        rintro (rfl | below | later)
        · exact same rfl
        · exact ih_children below
        · exact ih_rest later

theorem prune_labels (label kept : α) (forest : Forest α) (member : kept ∈ (forest.prune label).labels) :
    kept ∈ forest.labels := by
  induction forest with
  | nil => exact member
  | cons other children rest ih_children ih_rest =>
      rw [prune] at member
      rw [mem_labels]
      by_cases same : other = label
      · rw [if_pos same] at member
        exact .inr (.inr (ih_rest member))
      · rw [if_neg same, mem_labels] at member
        exact member.imp_right (Or.imp ih_children ih_rest)

-- What is pruned is the label and what is below it, and nothing else.
theorem prune_stays (label kept : α) (forest : Forest α) (member : kept ∈ forest.labels) :
    kept ∈ (forest.prune label).labels ∨ ∃ below, Has label below forest ∧ (kept = label ∨ kept ∈ below.labels) := by
  induction forest with
  | nil => cases member
  | cons other children rest ih_children ih_rest =>
      have after_later : kept ∈ rest.labels → kept ∈ (rest.prune label).labels ∨
          ∃ below, Has label below (.cons other children rest) ∧ (kept = label ∨ kept ∈ below.labels) := by
        intro later
        exact (ih_rest later).imp_right fun ⟨below, has, inside⟩ => ⟨below, .later other children rest has, inside⟩
      rw [prune]
      by_cases same : other = label
      · subst same
        rw [if_pos rfl]
        rcases (mem_labels kept other children rest).mp member with root | below | later
        · exact .inr ⟨children, .here rest, .inl root⟩
        · exact .inr ⟨children, .here rest, .inr below⟩
        · exact after_later later
      · rw [if_neg same, mem_labels]
        rcases (mem_labels kept other children rest).mp member with root | below | later
        · exact .inl (.inl root)
        · rcases ih_children below with stays | ⟨lower, has, inside⟩
          · exact .inl (.inr (.inl stays))
          · exact .inr ⟨lower, .inside other children rest has, inside⟩
        · exact (after_later later).imp_left fun stays => .inr (.inr stays)

theorem prune_below (label : α) (forest below : Forest α) (nodup : forest.labels.Nodup)
    (has : Has label below forest) (lower : α) (member : lower ∈ below.labels) :
    lower ∉ (forest.prune label).labels := by
  induction has with
  | here rest =>
      have distinct := distinct_of_nodup label below rest nodup
      rw [prune, if_pos rfl]
      exact fun stays => distinct.apart lower member (prune_labels label lower rest stays)
  | inside other children rest has ih =>
      have distinct := distinct_of_nodup other children rest nodup
      have inside := has_labels children below label has member
      have not_later : lower ∉ (rest.prune label).labels :=
        fun stays => distinct.apart lower inside (prune_labels label lower rest stays)
      rw [prune]
      by_cases same : other = label
      · rwa [if_pos same]
      · rw [if_neg same, mem_labels]
        rintro (rfl | stays | later)
        · exact distinct.root_children inside
        · exact ih distinct.below stays
        · exact not_later later
  | later other children rest has ih =>
      have distinct := distinct_of_nodup other children rest nodup
      have later := has_labels rest below label has member
      rw [prune]
      by_cases same : other = label
      · rw [if_pos same]
        exact ih distinct.later
      · rw [if_neg same, mem_labels]
        rintro (rfl | stays | again)
        · exact distinct.root_rest later
        · exact distinct.apart lower (prune_labels label lower children stays) later
        · exact ih distinct.later again

end Prune

end Forest

end OrderedForest

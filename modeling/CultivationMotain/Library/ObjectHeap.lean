import Mathlib.Data.List.Basic

set_option autoImplicit false

namespace ObjectHeap

universe u

variable {α : Type u}

-- Objects are named by the order in which they were allocated, and are never
-- freed: a reference held by a pending callback keeps naming its object.
abbrev Heap (α : Type u) := List α
abbrev Ref := Nat

def read (heap : Heap α) (ref : Ref) : Option α := heap[ref]?

def fresh (heap : Heap α) : Ref := heap.length

def alloc (heap : Heap α) (object : α) : Heap α := heap ++ [object]

def update (heap : Heap α) (ref : Ref) (change : α → α) : Heap α := heap.modify ref change

@[simp] theorem read_nil (ref : Ref) : read ([] : Heap α) ref = none := rfl

@[simp] theorem read_fresh (heap : Heap α) : read heap (fresh heap) = none := by
  simp [read, fresh]

@[simp] theorem fresh_update (heap : Heap α) (ref : Ref) (change : α → α) :
    fresh (update heap ref change) = fresh heap := by
  simp [fresh, update]

@[simp] theorem fresh_alloc (heap : Heap α) (object : α) : fresh (alloc heap object) = fresh heap + 1 := by
  simp [fresh, alloc]

theorem read_before_fresh (heap : Heap α) (ref : Ref) (found : α) (present : read heap ref = some found) :
    ref < fresh heap :=
  (List.getElem?_eq_some_iff.mp present).1

theorem read_alloc (heap : Heap α) (object : α) (ref : Ref) :
    read (alloc heap object) ref = if ref = fresh heap then some object else read heap ref := by
  unfold read alloc fresh
  by_cases new : ref = heap.length
  · simp [new]
  · rw [if_neg new]
    by_cases old : ref < heap.length
    · exact List.getElem?_append_left old
    · have beyond : heap.length < ref := Nat.lt_of_le_of_ne (Nat.le_of_not_lt old) (Ne.symm new)
      rw [List.getElem?_eq_none (by simpa using Nat.succ_le_of_lt beyond), List.getElem?_eq_none (Nat.le_of_lt beyond)]

theorem read_alloc_old (heap : Heap α) (object found : α) (ref : Ref) (present : read heap ref = some found) :
    read (alloc heap object) ref = some found := by
  have old : ref ≠ fresh heap := by
    rintro rfl
    simp at present
  rw [read_alloc, if_neg old, present]

theorem read_update (heap : Heap α) (ref other : Ref) (change : α → α) :
    read (update heap ref change) other = if other = ref then (read heap other).map change else read heap other := by
  unfold read update
  by_cases same : other = ref
  · simp [same]
  · simp [Ne.symm same, same]

theorem read_alloc_cases (heap : Heap α) (object found : α) (ref : Ref)
    (present : read (alloc heap object) ref = some found) :
    (ref = fresh heap ∧ object = found) ∨ (ref ≠ fresh heap ∧ read heap ref = some found) := by
  rw [read_alloc] at present
  split at present
  · rename_i new
    exact .inl ⟨new, Option.some.inj present⟩
  · rename_i old
    exact .inr ⟨old, present⟩

theorem read_update_cases (heap : Heap α) (ref other : Ref) (change : α → α) (found : α)
    (present : read (update heap ref change) other = some found) :
    (other = ref ∧ ∃ object, read heap ref = some object ∧ change object = found) ∨
      (other ≠ ref ∧ read heap other = some found) := by
  rw [read_update] at present
  split at present
  · rename_i same
    obtain ⟨object, held, changed⟩ := Option.map_eq_some_iff.mp present
    exact .inl ⟨same, object, same ▸ held, changed⟩
  · rename_i different
    exact .inr ⟨different, present⟩

theorem read_update_same (heap : Heap α) (ref : Ref) (change : α → α) (object : α)
    (present : read heap ref = some object) : read (update heap ref change) ref = some (change object) := by
  rw [read_update, if_pos rfl, present, Option.map_some]

theorem read_update_other (heap : Heap α) (ref other : Ref) (change : α → α) (different : other ≠ ref) :
    read (update heap ref change) other = read heap other := by
  rw [read_update, if_neg different]

theorem read_alloc_fresh (heap : Heap α) (object : α) : read (alloc heap object) (fresh heap) = some object := by
  rw [read_alloc, if_pos rfl]

end ObjectHeap

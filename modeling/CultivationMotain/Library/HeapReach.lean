import CultivationMotain.Library.ObjectHeap
import Mathlib.Logic.Relation

set_option autoImplicit false

namespace HeapReach

open ObjectHeap

universe u

-- The objects of a heap refer to others; links are the references in one.
variable {α : Type u} (links : α → List Ref)

def Linked (heap : Heap α) (one other : Ref) : Prop := ∃ object, read heap one = some object ∧ other ∈ links object

def Reaches (heap : Heap α) : Ref → Ref → Prop := Relation.ReflTransGen (Linked links heap)

def Apart (heap : Heap α) (others : List Ref) (ref : Ref) : Prop := ∀ other ∈ others, ¬ Reaches links heap ref other

variable (heap after : Heap α)

theorem reaches_self (ref : Ref) : Reaches links heap ref ref := .refl

theorem reaches_mono (edges : ∀ one other, Linked links after one other → Linked links heap one other)
    (ref target : Ref) (path : Reaches links after ref target) : Reaches links heap ref target :=
  Relation.ReflTransGen.mono edges _ _ path

-- A change whose new links all lead to objects from which the target cannot be
-- reached makes no new path to it.
theorem reaches_reflects (target : Ref)
    (edges : ∀ one other, Linked links after one other →
      Linked links heap one other ∨ ¬ Reaches links heap other target)
    (ref : Ref) (path : Reaches links after ref target) : Reaches links heap ref target := by
  induction path using Relation.ReflTransGen.head_induction_on with
  | refl => exact .refl
  | head link _ ih =>
      cases edges _ _ link with
      | inl old => exact .head old ih
      | inr new => exact absurd ih new

theorem apart_kept (others : List Ref) (ref : Ref)
    (edges : ∀ one other, Linked links after one other → Linked links heap one other ∨ Apart links heap others other)
    (apart : Apart links heap others ref) : Apart links after others ref := by
  intro target member path
  refine apart target member (reaches_reflects links heap after target (fun one other link => ?_) ref path)
  exact (edges one other link).imp_right fun new => new target member

theorem apart_reached (others : List Ref) (ref next : Ref) (apart : Apart links heap others ref)
    (path : Reaches links heap ref next) : Apart links heap others next :=
  fun target member later => apart target member (path.trans later)

theorem not_mem_apart (others : List Ref) (ref : Ref) (apart : Apart links heap others ref) : ref ∉ others :=
  fun member => apart ref member (reaches_self links heap ref)

-- References that are closed under the links are all that can be reached.
theorem reaches_inside (refs : List Ref) (closed : ∀ ref ∈ refs, ∀ next, Linked links heap ref next → next ∈ refs)
    (ref target : Ref) (member : ref ∈ refs) (path : Reaches links heap ref target) : target ∈ refs := by
  induction path with
  | refl => exact member
  | tail _ link ih => exact closed _ ih _ link

theorem linked_alloc (object : α) (empty : links object = []) (one other : Ref)
    (link : Linked links (alloc heap object) one other) : Linked links heap one other := by
  obtain ⟨found, present, listed⟩ := link
  cases read_alloc_cases heap object found one present with
  | inl new =>
      rw [← new.2, empty] at listed
      cases listed
  | inr old => exact ⟨found, old.2, listed⟩

theorem linked_update (ref : Ref) (change : α → α) (one other : Ref)
    (link : Linked links (update heap ref change) one other) :
    Linked links heap one other ∨
      ∃ object, read heap ref = some object ∧ one = ref ∧ other ∈ links (change object) := by
  obtain ⟨found, present, listed⟩ := link
  cases read_update_cases heap ref one change found present with
  | inl changed =>
      obtain ⟨same, object, held, rfl⟩ := changed
      exact .inr ⟨object, held, same, listed⟩
  | inr kept => exact .inl ⟨found, kept.2, listed⟩

end HeapReach

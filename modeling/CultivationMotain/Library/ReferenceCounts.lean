import Mathlib.Data.List.Basic
import Mathlib.Tactic.Common
import CultivationMotain.Library.Weights

set_option autoImplicit false

namespace ReferenceCounts

open Weights

universe u

variable {α : Type u}

-- An object with its number of references; none is an object that is never
-- freed and that no reference is counted for.
structure Cell (α : Type u) where
  count : Option Nat
  value : α
deriving DecidableEq, Repr

-- Objects are named by the order in which they were allocated, and a freed one
-- leaves a hole. disposed holds the values of the freed ones.
structure Heap (α : Type u) where
  cells : List (Option (Cell α))
  disposed : List α
deriving DecidableEq, Repr

def read (heap : Heap α) (ref : Nat) : Option (Cell α) := heap.cells[ref]?.join

def write (heap : Heap α) (ref : Nat) (cell : Cell α) : Heap α :=
  { heap with cells := heap.cells.set ref (some cell) }

def alloc (heap : Heap α) (value : α) : Heap α := { heap with cells := heap.cells ++ [some ⟨some 1, value⟩] }

def fresh (heap : Heap α) : Nat := heap.cells.length

def free (heap : Heap α) (ref : Nat) (value : α) : Heap α where
  cells := heap.cells.set ref none
  disposed := heap.disposed ++ [value]

-- none: the object was freed. A number of references that has reached the limit
-- stays there, and its object is never freed.
def retain (limit : Nat) (heap : Heap α) (ref : Nat) : Option (Heap α) :=
  (read heap ref).bind fun cell =>
    match cell.count with
    | none => some heap
    | some 0 => none
    | some (count + 1) =>
        some (write heap ref { cell with count := if count + 2 = limit then none else some (count + 2) })

-- The last reference to an object frees it, which releases what it refers to.
-- The number bounds the depth of the recursion.
def release (targets : α → List Nat) : Nat → Heap α → Nat → Option (Heap α)
  | 0, _, _ => none
  | depth + 1, heap, ref =>
      (read heap ref).bind fun cell =>
        match cell.count with
        | none => some heap
        | some 0 => none
        | some 1 => (targets cell.value).foldlM (release targets depth) (free heap ref cell.value)
        | some (count + 2) => some (write heap ref { cell with count := some (count + 1) })

-- An object's value, and whether it is one that is never freed.
def outline (heap : Heap α) (ref : Nat) : Option (α × Bool) :=
  (read heap ref).map fun cell => (cell.value, cell.count.isNone)

def values (heap : Heap α) (ref : Nat) : Option α := (read heap ref).map Cell.value

-- What is left of a heap is as it was.
structure Within (next heap : Heap α) : Prop where
  same : ∀ ref seen, outline next ref = some seen → outline heap ref = some seen
  immortal : ∀ ref value, outline heap ref = some (value, true) → outline next ref = some (value, true)

def slotWeight (measure : α → Nat) (slot : Option (Cell α)) : Nat := slot.elim 0 fun cell => measure cell.value

def pointers (targets : α → List Nat) (heap : Heap α) (ref : Nat) : Nat :=
  weigh (slotWeight fun value => (targets value).count ref) heap.cells

-- The references to the objects have changed, and nothing else.
structure Steady (next heap : Heap α) : Prop where
  values : values next = values heap
  immortal : ∀ ref value, outline heap ref = some (value, true) → outline next ref = some (value, true)

-- What was allocated weighs, whether it was disposed of or not.
def total (measure : α → Nat) (heap : Heap α) : Nat :=
  weigh (slotWeight measure) heap.cells + (heap.disposed.map measure).sum

-- held counts the references from outside of the heap; those that are owed, as
-- by an object whose targets are not retained yet, count as negative.
structure Accounted (targets : α → List Nat) (held : Nat → Int) (heap : Heap α) : Prop where
  counted : ∀ ref cell count, read heap ref = some cell → cell.count = some count →
    0 < count ∧ (count : Int) = held ref + pointers targets heap ref
  gone : ∀ ref, read heap ref = none → held ref + pointers targets heap ref = 0
  older : ∀ ref cell, read heap ref = some cell → ∀ target ∈ targets cell.value, target < ref

theorem within_of_outline {next heap : Heap α} (same : outline next = outline heap) : Within next heap where
  same := fun ref _ present => (congrFun same ref).symm.trans present
  immortal := fun ref _ present => (congrFun same ref).trans present

theorem within_trans {last next heap : Heap α} (second : Within last next) (first : Within next heap) :
    Within last heap where
  same := fun ref seen present => first.same ref seen (second.same ref seen present)
  immortal := fun ref value present => second.immortal ref value (first.immortal ref value present)

theorem steady_refl (heap : Heap α) : Steady heap heap := ⟨rfl, fun _ _ present => present⟩

theorem steady_trans {last next heap : Heap α} (second : Steady last next) (first : Steady next heap) :
    Steady last heap where
  values := second.values.trans first.values
  immortal := fun ref value present => second.immortal ref value (first.immortal ref value present)

theorem values_outline (heap : Heap α) (ref : Nat) : values heap ref = (outline heap ref).map Prod.fst := by
  rw [values, outline, Option.map_map]
  rfl

theorem values_of_within {next heap : Heap α} (smaller : Within next heap) (ref : Nat) (value : α)
    (present : values next ref = some value) : values heap ref = some value := by
  rw [values_outline] at present ⊢
  obtain ⟨seen, outlined, rfl⟩ := Option.map_eq_some_iff.mp present
  rw [smaller.same ref seen outlined, Option.map_some]

theorem read_slot (heap : Heap α) (ref : Nat) (cell : Cell α) (found : read heap ref = some cell) :
    heap.cells[ref]? = some (some cell) :=
  Option.join_eq_some_iff.mp found

theorem read_of_values (heap : Heap α) (ref : Nat) (value : α) (present : values heap ref = some value) :
    ∃ cell, read heap ref = some cell ∧ cell.value = value :=
  Option.map_eq_some_iff.mp present

theorem read_lt_fresh (heap : Heap α) (ref : Nat) (cell : Cell α) (found : read heap ref = some cell) :
    ref < fresh heap :=
  (List.getElem?_eq_some_iff.mp (read_slot heap ref cell found)).1

@[simp] theorem read_fresh (heap : Heap α) : read heap (fresh heap) = none := by simp [read, fresh]

theorem read_write (heap : Heap α) (ref other : Nat) (cell moved : Cell α) (found : read heap ref = some cell) :
    read (write heap ref moved) other = if other = ref then some moved else read heap other := by
  have inside : ref < heap.cells.length := read_lt_fresh heap ref cell found
  by_cases same : other = ref
  · subst same
    simp [read, write, inside]
  · simp [read, write, same, Ne.symm same]

theorem read_free (heap : Heap α) (ref other : Nat) (value : α) :
    read (free heap ref value) other = if other = ref then none else read heap other := by
  by_cases same : other = ref
  · subst same
    by_cases inside : other < heap.cells.length
    · simp [read, free, inside]
    · simp [read, free, inside]
  · simp [read, free, same, Ne.symm same]

theorem read_alloc (heap : Heap α) (value : α) (ref : Nat) :
    read (alloc heap value) ref = if ref = fresh heap then some ⟨some 1, value⟩ else read heap ref := by
  by_cases new : ref = heap.cells.length
  · simp [read, alloc, fresh, new]
  · by_cases old : ref < heap.cells.length
    · simp [read, alloc, fresh, new, List.getElem?_append_left old]
    · have other : ¬ref = fresh heap := new
      have outside : heap.cells.length ≤ ref := Nat.le_of_not_lt old
      have beyond : (alloc heap value).cells.length ≤ ref := by
        rw [alloc, List.length_append, List.length_singleton]
        omega
      rw [if_neg other, read, read, List.getElem?_eq_none beyond, List.getElem?_eq_none outside]

theorem outline_write (heap : Heap α) (ref other : Nat) (cell moved : Cell α) (found : read heap ref = some cell)
    (same : moved.value = cell.value) (mortal : moved.count.isNone = cell.count.isNone) :
    outline (write heap ref moved) other = outline heap other := by
  rw [outline, outline, read_write heap ref other cell moved found]
  by_cases here : other = ref
  · rw [if_pos here, here, found, Option.map_some, Option.map_some, same, mortal]
  · rw [if_neg here]

theorem steady_write (heap : Heap α) (ref : Nat) (cell moved : Cell α) (found : read heap ref = some cell)
    (same : moved.value = cell.value) (immortal : cell.count = none → moved.count = none) :
    Steady (write heap ref moved) heap where
  values := by
    funext other
    rw [values, values, read_write heap ref other cell moved found]
    by_cases here : other = ref
    · rw [if_pos here, here, found, Option.map_some, Option.map_some, same]
    · rw [if_neg here]
  immortal := by
    intro other value present
    rw [outline, read_write heap ref other cell moved found]
    by_cases here : other = ref
    · rw [here, outline, found, Option.map_some] at present
      have counts : cell.count = none := Option.isNone_iff_eq_none.mp (congrArg Prod.snd (Option.some.inj present))
      rw [if_pos here, Option.map_some, same, immortal counts]
      rwa [counts] at present
    · rwa [if_neg here]

theorem outline_alloc (heap : Heap α) (value : α) (ref : Nat) :
    outline (alloc heap value) ref = if ref = fresh heap then some (value, false) else outline heap ref := by
  rw [outline, read_alloc]
  by_cases new : ref = fresh heap
  · rw [if_pos new, if_pos new]
    rfl
  · rw [if_neg new, if_neg new]
    rfl

theorem values_alloc (heap : Heap α) (value : α) (ref : Nat) (other : α) (present : values heap ref = some other) :
    values (alloc heap value) ref = some other := by
  obtain ⟨cell, found, rfl⟩ := read_of_values heap ref other present
  rw [values, read_alloc, if_neg (read_lt_fresh heap ref cell found).ne, found, Option.map_some]

theorem values_alloc_fresh (heap : Heap α) (value : α) : values (alloc heap value) (fresh heap) = some value := by
  rw [values, read_alloc, if_pos rfl, Option.map_some]

theorem within_free (heap : Heap α) (ref : Nat) (cell : Cell α) (found : read heap ref = some cell)
    (mortal : cell.count.isNone = false) : Within (free heap ref cell.value) heap where
  same := by
    intro other seen present
    rw [outline, read_free] at present
    by_cases same : other = ref
    · rw [if_pos same] at present
      cases present
    · rwa [if_neg same] at present
  immortal := by
    intro other value present
    rw [outline, read_free]
    by_cases same : other = ref
    · rw [same, outline, found, Option.map_some, mortal] at present
      cases present
    · rwa [if_neg same]

theorem weigh_write (measure : α → Nat) (heap : Heap α) (ref : Nat) (cell moved : Cell α)
    (found : read heap ref = some cell) (same : measure moved.value = measure cell.value) :
    weigh (slotWeight measure) (write heap ref moved).cells = weigh (slotWeight measure) heap.cells := by
  have shift := weigh_set (slotWeight measure) heap.cells ref _ (some moved) (read_slot heap ref cell found)
  have equal : slotWeight measure (some moved) = slotWeight measure (some cell) := same
  rw [equal] at shift
  exact Nat.add_right_cancel shift

theorem weigh_free (measure : α → Nat) (heap : Heap α) (ref : Nat) (cell : Cell α)
    (found : read heap ref = some cell) :
    weigh (slotWeight measure) (free heap ref cell.value).cells + measure cell.value =
      weigh (slotWeight measure) heap.cells :=
  weigh_set (slotWeight measure) heap.cells ref _ none (read_slot heap ref cell found)

theorem weigh_alloc (measure : α → Nat) (heap : Heap α) (value : α) :
    weigh (slotWeight measure) (alloc heap value).cells = weigh (slotWeight measure) heap.cells + measure value := by
  rw [weigh, alloc, List.map_append, List.sum_append]
  rfl

variable (targets : α → List Nat)

theorem accounted_congr {held other : Nat → Int} {heap : Heap α} (accounted : Accounted targets held heap)
    (same : ∀ ref, held ref = other ref) : Accounted targets other heap := by
  have equal : held = other := funext same
  exact equal ▸ accounted

-- A reference more or less, from outside of the heap; the number may also be given
-- up.
theorem accounted_write {held : Nat → Int} {heap : Heap α} (ref : Nat) (cell : Cell α) (moved : Option Nat)
    (shift : Int) (accounted : Accounted targets held heap) (found : read heap ref = some cell)
    (shifted : ∀ number, moved = some number →
      0 < number ∧ ∃ count, cell.count = some count ∧ (number : Int) = count + shift) :
    Accounted targets (fun other => held other + if other = ref then shift else 0)
      (write heap ref { cell with count := moved }) := by
  have same : ∀ other, pointers targets (write heap ref { cell with count := moved }) other =
      pointers targets heap other := fun other => weigh_write _ heap ref cell _ found rfl
  refine ⟨?_, ?_, ?_⟩
  · intro other kept number present counted
    rw [read_write heap ref other cell _ found] at present
    rw [same]
    by_cases here : other = ref
    · rw [if_pos here] at present
      cases Option.some.inj present
      obtain ⟨positive, count, counts, moved_by⟩ := shifted number counted
      have balance := (accounted.counted ref cell count found counts).2
      rw [if_pos here, here]
      exact ⟨positive, by omega⟩
    · rw [if_neg here] at present
      rw [if_neg here, Int.add_zero]
      exact accounted.counted other kept number present counted
  · intro other absent
    rw [read_write heap ref other cell _ found] at absent
    by_cases here : other = ref
    · rw [if_pos here] at absent
      cases absent
    · rw [if_neg here] at absent
      rw [same, if_neg here, Int.add_zero]
      exact accounted.gone other absent
  · intro other kept present
    rw [read_write heap ref other cell _ found] at present
    by_cases here : other = ref
    · rw [if_pos here] at present
      cases Option.some.inj present
      rw [here]
      exact accounted.older ref cell found
    · rw [if_neg here] at present
      exact accounted.older other kept present

-- A value may change as long as it refers to the same objects.
theorem accounted_replace {held : Nat → Int} {heap : Heap α} (ref : Nat) (cell : Cell α) (value : α)
    (accounted : Accounted targets held heap) (found : read heap ref = some cell)
    (same : targets value = targets cell.value) :
    Accounted targets held (write heap ref { cell with value := value }) := by
  have pointed : ∀ other, pointers targets (write heap ref { cell with value := value }) other =
      pointers targets heap other := fun other =>
    weigh_write _ heap ref cell _ found (congrArg (List.count other) same)
  refine ⟨?_, ?_, ?_⟩
  · intro other kept count present counts
    rw [read_write heap ref other cell _ found] at present
    rw [pointed]
    by_cases here : other = ref
    · rw [if_pos here] at present
      cases Option.some.inj present
      rw [here]
      exact accounted.counted ref cell count found counts
    · rw [if_neg here] at present
      exact accounted.counted other kept count present counts
  · intro other absent
    rw [read_write heap ref other cell _ found] at absent
    by_cases here : other = ref
    · rw [if_pos here] at absent
      cases absent
    · rw [if_neg here] at absent
      rw [pointed]
      exact accounted.gone other absent
  · intro other kept present
    rw [read_write heap ref other cell _ found] at present
    by_cases here : other = ref
    · rw [if_pos here] at present
      cases Option.some.inj present
      rw [here, same]
      exact accounted.older ref cell found
    · rw [if_neg here] at present
      exact accounted.older other kept present

-- What is held of an object that is never freed does not matter.
theorem accounted_immortal {held : Nat → Int} {heap : Heap α} (ref : Nat) (cell : Cell α) (shift : Int)
    (accounted : Accounted targets held heap) (found : read heap ref = some cell) (immortal : cell.count = none) :
    Accounted targets (fun other => held other + if other = ref then shift else 0) heap := by
  refine ⟨?_, ?_, accounted.older⟩
  · intro other kept number present counted
    by_cases here : other = ref
    · rw [here, found] at present
      rw [← Option.some.inj present, immortal] at counted
      cases counted
    · rw [if_neg here, Int.add_zero]
      exact accounted.counted other kept number present counted
  · intro other absent
    by_cases here : other = ref
    · rw [here, found] at absent
      cases absent
    · rw [if_neg here, Int.add_zero]
      exact accounted.gone other absent

theorem retain_accounted {held : Nat → Int} {heap : Heap α} (limit ref : Nat) (cell : Cell α)
    (accounted : Accounted targets held heap) (found : read heap ref = some cell) :
    ∃ next, retain limit heap ref = some next ∧
      Accounted targets (fun other => held other + if other = ref then 1 else 0) next ∧ Steady next heap := by
  cases counts : cell.count with
  | none =>
      refine ⟨heap, ?_, accounted_immortal targets ref cell 1 accounted found counts, steady_refl heap⟩
      rw [retain, found, Option.bind_some, counts]
  | some count =>
      cases count with
      | zero => exact absurd (accounted.counted ref cell 0 found counts).1 (Nat.lt_irrefl 0)
      | succ count =>
          have mortal : cell.count ≠ none := by rw [counts]; exact Option.some_ne_none _
          refine ⟨write heap ref { cell with count := if count + 2 = limit then none else some (count + 2) }, ?_,
            accounted_write targets ref cell _ 1 accounted found fun number moved => ?_,
            steady_write heap ref cell _ found rfl fun none => absurd none mortal⟩
          · rw [retain, found, Option.bind_some, counts]
          · by_cases full : count + 2 = limit
            · rw [if_pos full] at moved
              cases moved
            · rw [if_neg full] at moved
              cases Option.some.inj moved
              exact ⟨Nat.succ_pos _, count + 1, counts, rfl⟩

-- The objects that are owed a reference are retained.
theorem retains_accounted (limit : Nat) (refs : List Nat) (held : Nat → Int) (heap : Heap α)
    (accounted : Accounted targets (fun ref => held ref - refs.count ref) heap)
    (live : ∀ ref ∈ refs, ∃ value, values heap ref = some value) :
    ∃ next, refs.foldlM (retain limit) heap = some next ∧ Accounted targets held next ∧ Steady next heap := by
  induction refs generalizing heap with
  | nil => exact ⟨heap, rfl, accounted_congr targets accounted fun ref => Int.sub_zero _, steady_refl heap⟩
  | cons ref rest ih =>
      obtain ⟨value, present⟩ := live ref List.mem_cons_self
      obtain ⟨cell, found, -⟩ := read_of_values heap ref value present
      obtain ⟨middle, retained, owing, same⟩ := retain_accounted targets limit ref cell accounted found
      have fewer : Accounted targets (fun other => held other - rest.count other) middle := by
        refine accounted_congr targets owing fun other => ?_
        by_cases here : other = ref
        · subst here
          rw [if_pos rfl, List.count_cons_self]
          omega
        · rw [if_neg here, List.count_cons_of_ne (Ne.symm here), Int.add_zero]
      obtain ⟨next, ran, last, kept⟩ := ih middle fewer fun other member => by
        rw [same.values]
        exact live other (List.mem_cons_of_mem _ member)
      refine ⟨next, ?_, last, steady_trans kept same⟩
      rw [List.foldlM_cons, retained]
      exact ran

-- A new object is held once and owes its targets the references it has to them.
theorem alloc_accounted {held : Nat → Int} {heap : Heap α} (value : α) (accounted : Accounted targets held heap)
    (known : ∀ target ∈ targets value, target < fresh heap) :
    Accounted targets (fun ref => (held ref + if ref = fresh heap then 1 else 0) - (targets value).count ref)
      (alloc heap value) := by
  have more : ∀ ref, pointers targets (alloc heap value) ref = pointers targets heap ref + (targets value).count ref :=
    fun ref => weigh_alloc _ heap value
  refine ⟨?_, ?_, ?_⟩
  · intro ref cell count present counts
    have pointed := more ref
    rw [read_alloc] at present
    by_cases new : ref = fresh heap
    · rw [if_pos new] at present
      cases Option.some.inj present
      cases Option.some.inj counts
      have unknown := accounted.gone ref (new ▸ read_fresh heap)
      rw [if_pos new]
      exact ⟨Nat.one_pos, by omega⟩
    · rw [if_neg new] at present
      obtain ⟨positive, balance⟩ := accounted.counted ref cell count present counts
      rw [if_neg new]
      exact ⟨positive, by omega⟩
  · intro ref absent
    have pointed := more ref
    rw [read_alloc] at absent
    by_cases new : ref = fresh heap
    · rw [if_pos new] at absent
      cases absent
    · rw [if_neg new] at absent
      have balance := accounted.gone ref absent
      rw [if_neg new]
      omega
  · intro ref cell present
    rw [read_alloc] at present
    by_cases new : ref = fresh heap
    · rw [if_pos new] at present
      cases Option.some.inj present
      rw [new]
      exact known
    · rw [if_neg new] at present
      exact accounted.older ref cell present

-- What a freed object referred to is held from outside until it is released.
theorem free_accounted {held : Nat → Int} {heap : Heap α} (ref : Nat) (cell : Cell α)
    (accounted : Accounted targets held heap) (found : read heap ref = some cell)
    (last : held ref + pointers targets heap ref = 1) :
    Accounted targets (fun other => (held other + if other = ref then -1 else 0) + (targets cell.value).count other)
      (free heap ref cell.value) := by
  have less : ∀ other, pointers targets (free heap ref cell.value) other + (targets cell.value).count other =
      pointers targets heap other := fun other => weigh_free _ heap ref cell found
  refine ⟨?_, ?_, ?_⟩
  · intro other kept count present counts
    have pointed := less other
    rw [read_free] at present
    by_cases here : other = ref
    · rw [if_pos here] at present
      cases present
    · rw [if_neg here] at present
      obtain ⟨positive, balance⟩ := accounted.counted other kept count present counts
      rw [if_neg here]
      exact ⟨positive, by omega⟩
  · intro other absent
    have pointed := less other
    rw [read_free] at absent
    by_cases here : other = ref
    · rw [if_pos here]
      rw [← here] at last
      omega
    · rw [if_neg here] at absent
      have balance := accounted.gone other absent
      rw [if_neg here]
      omega
  · intro other kept present
    rw [read_free] at present
    by_cases here : other = ref
    · rw [if_pos here] at present
      cases present
    · rw [if_neg here] at present
      exact accounted.older other kept present

-- By induction on the references that are given up, each of which is held until
-- its turn comes.
theorem releases_accounted (depth : Nat)
    (single : ∀ (held : Nat → Int) (heap : Heap α) (ref : Nat) (cell : Cell α), Accounted targets held heap →
      (∀ other, 0 ≤ held other) → 0 < held ref → read heap ref = some cell → ref < depth →
      ∃ next, release targets depth heap ref = some next ∧
        Accounted targets (fun other => held other + if other = ref then -1 else 0) next ∧ Within next heap)
    (refs : List Nat) (held : Nat → Int) (heap : Heap α)
    (accounted : Accounted targets (fun ref => held ref + refs.count ref) heap) (held_nonneg : ∀ ref, 0 ≤ held ref)
    (shallow : ∀ ref ∈ refs, ref < depth) :
    ∃ next, refs.foldlM (release targets depth) heap = some next ∧ Accounted targets held next ∧ Within next heap := by
  induction refs generalizing heap with
  | nil => exact ⟨heap, rfl, accounted_congr targets accounted fun ref => Int.add_zero _, within_of_outline rfl⟩
  | cons ref rest ih =>
      have several : ∀ other, (0 : Int) ≤ held other + (ref :: rest).count other := fun other => by
        have base := held_nonneg other
        omega
      have some_held : (0 : Int) < held ref + (ref :: rest).count ref := by
        have base := held_nonneg ref
        rw [List.count_cons_self]
        omega
      cases found : read heap ref with
      | none =>
          have nobody := accounted.gone ref found
          omega
      | some cell =>
          obtain ⟨middle, released, owing, smaller⟩ :=
            single _ heap ref cell accounted several some_held found (shallow ref List.mem_cons_self)
          have fewer : Accounted targets (fun other => held other + rest.count other) middle := by
            refine accounted_congr targets owing fun other => ?_
            by_cases here : other = ref
            · subst here
              rw [if_pos rfl, List.count_cons_self]
              omega
            · rw [if_neg here, List.count_cons_of_ne (Ne.symm here), Int.add_zero]
          obtain ⟨next, ran, last, kept⟩ :=
            ih middle fewer fun other member => shallow other (List.mem_cons_of_mem _ member)
          refine ⟨next, ?_, last, within_trans kept smaller⟩
          rw [List.foldlM_cons, released]
          exact ran

-- By induction on the depth: what an object refers to was allocated before it.
theorem release_accounted (depth : Nat) (held : Nat → Int) (heap : Heap α) (ref : Nat) (cell : Cell α)
    (accounted : Accounted targets held heap) (held_nonneg : ∀ other, 0 ≤ held other) (some_held : 0 < held ref)
    (found : read heap ref = some cell) (shallow : ref < depth) :
    ∃ next, release targets depth heap ref = some next ∧
      Accounted targets (fun other => held other + if other = ref then -1 else 0) next ∧ Within next heap := by
  induction depth generalizing held heap ref cell with
  | zero => exact absurd shallow (Nat.not_lt_zero ref)
  | succ depth ih =>
      rw [release, found, Option.bind_some]
      cases counts : cell.count with
      | none =>
          exact ⟨heap, rfl, accounted_immortal targets ref cell (-1) accounted found counts, within_of_outline rfl⟩
      | some count =>
          obtain ⟨positive, balance⟩ := accounted.counted ref cell count found counts
          match count, positive with
          | 1, _ =>
              have alone : held ref + pointers targets heap ref = 1 := balance.symm
              refine (releases_accounted targets depth ih (targets cell.value) _ _
                (free_accounted targets ref cell accounted found alone) (fun other => ?_) fun target member =>
                  Nat.lt_of_lt_of_le (accounted.older ref cell found target member) (Nat.le_of_lt_succ shallow)).imp
                fun next ran => ⟨ran.1, ran.2.1, within_trans ran.2.2
                  (within_free heap ref cell found (by rw [counts]; rfl))⟩
              have base := held_nonneg other
              by_cases here : other = ref
              · rw [if_pos here, here]
                omega
              · rw [if_neg here, Int.add_zero]
                exact base
          | count + 2, _ =>
              refine ⟨write heap ref { cell with count := some (count + 1) }, rfl,
                accounted_write targets ref cell (some (count + 1)) (-1) accounted found fun number moved => ?_,
                within_of_outline (funext fun other => ?_)⟩
              · cases Option.some.inj moved
                exact ⟨Nat.succ_pos count, count + 2, counts, by omega⟩
              · exact outline_write heap ref other cell _ found rfl (by rw [counts]; rfl)

theorem write_total (measure : α → Nat) (heap : Heap α) (ref : Nat) (cell moved : Cell α)
    (found : read heap ref = some cell) (same : measure moved.value = measure cell.value) :
    total measure (write heap ref moved) = total measure heap :=
  congrArg (· + _) (weigh_write measure heap ref cell moved found same)

theorem retain_total (measure : α → Nat) (limit : Nat) (heap next : Heap α) (ref : Nat)
    (retained : retain limit heap ref = some next) : total measure next = total measure heap := by
  obtain ⟨cell, found, counted⟩ := Option.bind_eq_some_iff.mp retained
  match counts : cell.count with
  | none =>
      rw [counts] at counted
      exact Option.some.inj counted ▸ rfl
  | some 0 =>
      rw [counts] at counted
      cases counted
  | some (count + 1) =>
      rw [counts] at counted
      cases Option.some.inj counted
      exact write_total measure heap ref cell _ found rfl

theorem retains_total (measure : α → Nat) (limit : Nat) (refs : List Nat) (heap next : Heap α)
    (retained : refs.foldlM (retain limit) heap = some next) : total measure next = total measure heap := by
  induction refs generalizing heap with
  | nil => exact Option.some.inj retained ▸ rfl
  | cons ref rest ih =>
      obtain ⟨middle, here, later⟩ := Option.bind_eq_some_iff.mp retained
      exact (ih middle later).trans (retain_total measure limit heap middle ref here)

theorem release_total (measure : α → Nat) (depth : Nat) (heap next : Heap α) (ref : Nat)
    (released : release targets depth heap ref = some next) : total measure next = total measure heap := by
  induction depth generalizing heap next ref with
  | zero => cases released
  | succ depth ih =>
      rw [release] at released
      obtain ⟨cell, found, counted⟩ := Option.bind_eq_some_iff.mp released
      match counts : cell.count with
      | none =>
          rw [counts] at counted
          exact Option.some.inj counted ▸ rfl
      | some 0 =>
          rw [counts] at counted
          cases counted
      | some 1 =>
          rw [counts] at counted
          have each : ∀ (refs : List Nat) (start : Heap α), refs.foldlM (release targets depth) start = some next →
              total measure next = total measure start := by
            intro refs
            induction refs with
            | nil => exact fun start ran => Option.some.inj ran ▸ rfl
            | cons first rest step =>
                intro start ran
                obtain ⟨middle, here, later⟩ := Option.bind_eq_some_iff.mp ran
                exact (step middle later).trans (ih start middle first here)
          have freed : total measure (free heap ref cell.value) = total measure heap := by
            have less := weigh_free measure heap ref cell found
            rw [total, total, ← less, free, List.map_append, List.sum_append, List.map_singleton, List.sum_singleton]
            dsimp only
            omega
          exact (each _ _ counted).trans freed
      | some (count + 2) =>
          rw [counts] at counted
          cases Option.some.inj counted
          exact write_total measure heap ref cell _ found rfl

theorem alloc_total (measure : α → Nat) (heap : Heap α) (value : α) :
    total measure (alloc heap value) = total measure heap + measure value := by
  have more := weigh_alloc measure heap value
  rw [total, more, total]
  exact Nat.add_right_comm _ _ _

-- A freed object is referred to by none that is left.
theorem targets_live (held : Nat → Int) (heap : Heap α) (accounted : Accounted targets held heap)
    (held_nonneg : ∀ ref, 0 ≤ held ref) (ref target : Nat) (value : α) (present : values heap ref = some value)
    (refers : target ∈ targets value) : ∃ other, values heap target = some other := by
  obtain ⟨cell, found, rfl⟩ := read_of_values heap ref value present
  have pointed : 1 ≤ pointers targets heap target :=
    (List.count_pos_iff.mpr refers).trans_le
      (weight_le_weigh (slotWeight fun value => (targets value).count target) heap.cells (some cell)
        (List.mem_of_getElem? (read_slot heap ref cell found)))
  cases there : read heap target with
  | none =>
      have nobody := accounted.gone target there
      have base := held_nonneg target
      omega
  | some other => exact ⟨other.value, by rw [values, there, Option.map_some]⟩

theorem exists_pointer (heap : Heap α) (ref : Nat) (pointed : 0 < pointers targets heap ref) :
    ∃ other cell, read heap other = some cell ∧ ref ∈ targets cell.value := by
  obtain ⟨slot, member, refers⟩ := exists_of_weigh_pos _ _ pointed
  obtain ⟨index, held_at⟩ := List.mem_iff_getElem?.mp member
  cases slot with
  | none => exact absurd rfl refers
  | some cell =>
      exact ⟨index, cell, by rw [read, held_at, Option.join_some], List.count_pos_iff.mp (Nat.pos_of_ne_zero refers)⟩

-- By descending induction on the references: only a younger object could still
-- refer to one that nobody holds.
theorem all_freed (held : Nat → Int) (heap : Heap α) (accounted : Accounted targets held heap)
    (unheld : ∀ ref cell, read heap ref = some cell → cell.count ≠ none → held ref = 0)
    (simple : ∀ ref cell, read heap ref = some cell → cell.count = none → targets cell.value = [])
    (ref : Nat) (cell : Cell α) (found : read heap ref = some cell) : cell.count = none := by
  induction steps : fresh heap - ref using Nat.strong_induction_on generalizing ref cell with
  | h steps ih =>
      by_contra mortal
      obtain ⟨count, counts⟩ := Option.ne_none_iff_exists'.mp mortal
      obtain ⟨positive, balance⟩ := accounted.counted ref cell count found counts
      rw [unheld ref cell found mortal, Int.zero_add] at balance
      have pointed : 0 < pointers targets heap ref := by omega
      obtain ⟨index, other, present, target⟩ := exists_pointer targets heap ref pointed
      have younger := accounted.older index other present ref target
      have inside := read_lt_fresh heap index other present
      have immortal := ih (fresh heap - index) (by omega) index other present rfl
      rw [simple index other present immortal] at target
      cases target

end ReferenceCounts

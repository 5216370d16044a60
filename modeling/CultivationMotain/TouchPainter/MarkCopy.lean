import CultivationMotain.Library.Runs
import CultivationMotain.TouchPainter.MarkRemoval

set_option autoImplicit false

namespace CultivationMotain.TouchPainter

open Foundation ObjectHeap OrderedForest Runs

variable {UIColor : Type}

-- A vertex has no colour and no size, a stroke no location of its own.
def setColor (color : Option UIColor) : Mark UIColor → Mark UIColor
  | .stroke children _ size => .stroke children color size
  | .vertex location => .vertex location
  | .dots location _ size => .dots location color size

def setSize (size : CGFloat) : Mark UIColor → Mark UIColor
  | .stroke children color _ => .stroke children color size
  | .vertex location => .vertex location
  | .dots location color _ => .dots location color size

def setLocation (location : CGPoint) : Mark UIColor → Mark UIColor
  | .stroke children color size => .stroke children color size
  | .vertex _ => .vertex location
  | .dots _ color size => .dots location color size

-- A new object with the attributes set on it.
def allocWith (heap : Heap (Mark UIColor)) (mark : Mark UIColor) (color : Option UIColor) (size : CGFloat) :
    Heap (Mark UIColor) :=
  update (update (alloc heap mark) (fresh heap) (setColor color)) (fresh heap) (setSize size)

variable (rebuilt : Option UIColor → Option UIColor)

def addCopy (copy : Heap (Mark UIColor) → Ref → Option (Ref × Heap (Mark UIColor))) (strokeCopy : Ref)
    (heap : Heap (Mark UIColor)) (obj : Ref) : Option (Heap (Mark UIColor)) :=
  (copy heap obj).map fun (childCopy, heap) => addMark heap strokeCopy childCopy

-- The copy and the heap with it; rebuilt is the colour made from another's
-- CGColor. None is a copy nested deeper than the given number of calls, or of
-- no object.
def copyMark : Nat → Heap (Mark UIColor) → Ref → Option (Ref × Heap (Mark UIColor))
  | 0, _, _ => none
  | depth + 1, heap, mark =>
      match read heap mark with
      | some (.stroke children color size) =>
          let strokeCopy := fresh heap
          let made := allocWith heap (.stroke [] none 0) (rebuilt color) size
          (children.foldlM (addCopy (copyMark depth) strokeCopy) made).map fun heap => (strokeCopy, heap)
      | some (.vertex location) => some (fresh heap, alloc heap (.vertex location))
      | some (.dots location color size) =>
          some (fresh heap, allocWith heap (.dots location none 0) (rebuilt color) size)
      | none => none

-- What a mark is without its children.
def Mark.bare : Mark UIColor → Mark UIColor
  | .stroke _ color size => .stroke [] color size
  | leaf => leaf

-- The forests have one shape, with marks of the same attributes.
def Alike (heap after : Heap (Mark UIColor)) : Forest Ref → Forest Ref → Prop
  | .nil, .nil => True
  | .cons one children rest, .cons other children' rest' =>
      (read after other).map Mark.bare = (read heap one).map Mark.bare ∧ Alike heap after children children' ∧
        Alike heap after rest rest'
  | _, _ => False

structure Copied (heap after : Heap (Mark UIColor)) (forest copied : Forest Ref) : Prop where
  represented : Represents after copied
  alike : Alike heap after forest copied
  new : ∀ ref ∈ copied.labels, fresh heap ≤ ref ∧ ref < fresh after
  once : copied.labels.Nodup

theorem alloc_with_fresh (heap : Heap (Mark UIColor)) (mark : Mark UIColor) (color : Option UIColor) (size : CGFloat) :
    fresh (allocWith heap mark color size) = fresh heap + 1 := by
  rw [allocWith, fresh_update, fresh_update, fresh_alloc]

theorem alloc_with_new (heap : Heap (Mark UIColor)) (mark : Mark UIColor) (color : Option UIColor) (size : CGFloat) :
    read (allocWith heap mark color size) (fresh heap) = some (setSize size (setColor color mark)) :=
  read_update_same _ _ _ _ (read_update_same _ _ _ _ (read_alloc_fresh heap mark))

theorem alloc_with_old (heap : Heap (Mark UIColor)) (mark : Mark UIColor) (color : Option UIColor) (size : CGFloat)
    (ref : Ref) (old : ref < fresh heap) : read (allocWith heap mark color size) ref = read heap ref := by
  have different : ref ≠ fresh heap := Nat.ne_of_lt old
  rw [allocWith, read_update_other _ _ _ _ different, read_update_other _ _ _ _ different, read_alloc, if_neg different]

theorem represented_old (heap : Heap (Mark UIColor)) (forest : Forest Ref) (represented : Represents heap forest)
    (ref : Ref) (member : ref ∈ forest.labels) : ref < fresh heap := by
  induction forest with
  | nil => cases member
  | cons root below rest ih_below ih_rest =>
      obtain ⟨held, held_below, held_rest⟩ := represented
      rcases (Forest.mem_labels ref root below rest).mp member with rfl | inside | later
      · obtain ⟨object, present, -⟩ := Option.map_eq_some_iff.mp held
        exact read_before_fresh heap ref object present
      · exact ih_below held_below inside
      · exact ih_rest held_rest later

theorem alike_congr (heap heap' after after' : Heap (Mark UIColor)) (forest copied : Forest Ref)
    (same : ∀ ref ∈ forest.labels, read heap' ref = read heap ref)
    (same_copied : ∀ ref ∈ copied.labels, read after' ref = read after ref) (alike : Alike heap after forest copied) :
    Alike heap' after' forest copied := by
  induction forest generalizing copied with
  | nil =>
      cases copied with
      | nil => trivial
      | cons other below' rest' => exact alike
  | cons root below rest ih_below ih_rest =>
      cases copied with
      | nil => exact alike
      | cons other below' rest' =>
          obtain ⟨bare, alike_below, alike_rest⟩ := alike
          refine ⟨?_, ih_below below' (fun ref inside => ?_) (fun ref inside => ?_) alike_below,
            ih_rest rest' (fun ref later => ?_) (fun ref later => ?_) alike_rest⟩
          · rw [same root List.mem_cons_self, same_copied other List.mem_cons_self, bare]
          · exact same ref (List.mem_cons_of_mem _ (List.mem_append_left _ inside))
          · exact same_copied ref (List.mem_cons_of_mem _ (List.mem_append_left _ inside))
          · exact same ref (List.mem_cons_of_mem _ (List.mem_append_right _ later))
          · exact same_copied ref (List.mem_cons_of_mem _ (List.mem_append_right _ later))

-- What has been copied stays so while later objects, and older ones that are
-- not of the forest, change.
theorem Copied.kept {heap middle : Heap (Mark UIColor)} {forest copied : Forest Ref}
    (made : Copied heap middle forest copied) (after : Heap (Mark UIColor)) (grown : fresh middle ≤ fresh after)
    (same : ∀ ref, fresh heap ≤ ref → ref < fresh middle → read after ref = read middle ref) :
    Copied heap after forest copied where
  represented := represents_congr middle after copied
    (fun ref member => same ref (made.new ref member).1 (made.new ref member).2) made.represented
  alike := alike_congr heap heap middle after forest copied (fun _ _ => rfl)
    (fun ref member => same ref (made.new ref member).1 (made.new ref member).2) made.alike
  new ref member := ⟨(made.new ref member).1, (made.new ref member).2.trans_le grown⟩
  once := made.once

theorem leaf_nil (forest : Forest Ref) (leaf : forest.roots = []) : forest = .nil := by
  cases forest with
  | nil => rfl
  | cons root below rest => cases leaf

theorem copied_nil (heap after : Heap (Mark UIColor)) : Copied heap after .nil .nil :=
  ⟨trivial, trivial, (fun _ member => by cases member), List.nodup_nil⟩

-- The first new object is the copy of the root, the copies of what is below it
-- come after.
theorem copied_tree (heap made after : Heap (Mark UIColor)) (root : Ref) (below copied : Forest Ref)
    (object copy : Mark UIColor) (held : read heap root = some object) (held_below : Represents heap below)
    (next : fresh made = fresh heap + 1) (grown : fresh made ≤ fresh after)
    (old : ∀ ref, ref < fresh heap → read made ref = read heap ref) (made_below : Copied made after below copied)
    (new : read after (fresh heap) = some copy) (bare : copy.bare = object.bare)
    (children : copy.children = copied.roots) :
    Copied heap after (.cons root below .nil) (.cons (fresh heap) copied .nil) := by
  have above : fresh heap < fresh made := by
    rw [next]
    exact Nat.lt_succ_self _
  have later : ∀ ref ∈ copied.labels, fresh heap < ref := fun ref member =>
    above.trans_le (made_below.new ref member).1
  refine ⟨⟨?_, made_below.represented, trivial⟩, ⟨?_, ?_, trivial⟩, ?_, ?_⟩
  · rw [childrenAt, new, Option.map_some, children]
  · rw [new, held, Option.map_some, Option.map_some, bare]
  · refine alike_congr made heap after after below copied (fun ref member => ?_) (fun _ _ => rfl) made_below.alike
    exact (old ref (represented_old heap below held_below ref member)).symm
  · intro ref member
    rcases (Forest.mem_labels ref (fresh heap) copied .nil).mp member with rfl | inside | absent
    · exact ⟨Nat.le_refl _, above.trans_le grown⟩
    · exact ⟨Nat.le_of_lt (later ref inside), (made_below.new ref inside).2⟩
    · cases absent
  · rw [Forest.labels, Forest.labels, List.append_nil]
    exact List.nodup_cons.mpr ⟨fun member => Nat.lt_irrefl _ (later _ member), made_below.once⟩

-- What copying leaves: the copies, and all other objects as they were.
structure CopiedTree (heap after : Heap (Mark UIColor)) (root : Ref) (below copied : Forest Ref) : Prop where
  made : Copied heap after (.cons root below .nil) (.cons (fresh heap) copied .nil)
  grown : fresh heap < fresh after
  kept : ∀ ref, ref < fresh heap → read after ref = read heap ref

structure CopiedInto (heap after : Heap (Mark UIColor)) (stroke : Ref) (children : List Ref) (color : Option UIColor)
    (size : CGFloat) (forest copied : Forest Ref) : Prop where
  made : Copied heap after forest copied
  grown : fresh heap ≤ fresh after
  kept : ∀ ref, ref < fresh heap → ref ≠ stroke → read after ref = read heap ref
  stroke : read after stroke = some (.stroke (children ++ copied.roots) color size)

theorem copy_tree (plain : ∀ color, rebuilt color = color) (heap : Heap (Mark UIColor)) (depth : Nat) (root : Ref)
    (below : Forest Ref) (held : childrenAt heap root = some below.roots) (held_below : Represents heap below)
    (copies : ∀ made stroke color size, Represents made below → read made stroke = some (.stroke [] color size) →
      stroke ∉ below.labels → ∃ after copied,
        below.roots.foldlM (addCopy (copyMark rebuilt depth) stroke) made = some after ∧
          CopiedInto made after stroke [] color size below copied) :
    ∃ after copied, copyMark rebuilt (depth + 1) heap root = some (fresh heap, after) ∧
      CopiedTree heap after root below copied := by
  obtain ⟨object, present, roots⟩ := Option.map_eq_some_iff.mp held
  rw [copyMark, present]
  cases object with
  | stroke children color size =>
      obtain rfl : children = below.roots := roots
      have next := alloc_with_fresh heap (.stroke [] none 0) (rebuilt color) size
      have old := alloc_with_old heap (.stroke [] none 0) (rebuilt color) size
      have new := alloc_with_new heap (.stroke [] none 0) (rebuilt color) size
      rw [plain] at next old new
      obtain ⟨after, copied, folded, into⟩ := copies (allocWith heap (.stroke [] none 0) color size) (fresh heap)
        color size
        (represents_congr heap _ below (fun ref member => old ref (represented_old heap below held_below ref member))
          held_below)
        new (fun member => Nat.lt_irrefl _ (represented_old heap below held_below _ member))
      refine ⟨after, copied, ?_, ?_, ?_, ?_⟩
      · dsimp only
        rw [plain, folded]
        rfl
      · exact copied_tree heap _ after root below copied _ _ present held_below next into.grown old into.made
          into.stroke rfl rfl
      · have above := into.grown
        rw [next] at above
        exact Nat.lt_of_succ_le above
      · intro ref small
        rw [into.kept ref (next.symm ▸ Nat.lt_succ_of_lt small) (Nat.ne_of_lt small), old ref small]
  | vertex location =>
      obtain rfl := leaf_nil below roots.symm
      have old : ∀ ref, ref < fresh heap → read (alloc heap (.vertex location)) ref = read heap ref :=
        fun ref small => by rw [read_alloc, if_neg (Nat.ne_of_lt small)]
      refine ⟨_, .nil, rfl, ?_, ?_, old⟩
      · exact copied_tree heap _ _ root .nil .nil _ _ present trivial (fresh_alloc heap _) (Nat.le_refl _) old
          (copied_nil _ _) (read_alloc_fresh heap _) rfl rfl
      · rw [fresh_alloc]
        exact Nat.lt_succ_self _
  | dots location color size =>
      obtain rfl := leaf_nil below roots.symm
      have next := alloc_with_fresh heap (.dots location none 0) (rebuilt color) size
      have old := alloc_with_old heap (.dots location none 0) (rebuilt color) size
      have new := alloc_with_new heap (.dots location none 0) (rebuilt color) size
      refine ⟨_, .nil, rfl, ?_, ?_, old⟩
      · exact copied_tree heap _ _ root .nil .nil _ _ present trivial next (Nat.le_refl _) old (copied_nil _ _) new
          (congrArg (fun color => Mark.dots location color size) (plain color)) rfl
      · rw [next]
        exact Nat.lt_succ_self _

theorem add_copy_held (middle : Heap (Mark UIColor)) (stroke copy : Ref) (children : List Ref) (color : Option UIColor)
    (size : CGFloat) (held : read middle stroke = some (.stroke children color size)) :
    read (addMark middle stroke copy) stroke = some (.stroke (children ++ [copy]) color size) :=
  read_update_same middle stroke (addObject copy) _ held

-- The copy of one tree of a forest and the copies of the later ones.
theorem copied_cons (heap middle after : Heap (Mark UIColor)) (stroke root : Ref) (children : List Ref)
    (color : Option UIColor) (size : CGFloat) (below rest belowCopy restCopy : Forest Ref)
    (old : stroke < fresh heap) (apart : stroke ∉ rest.labels) (represented : Represents heap rest)
    (first : CopiedTree heap middle root below belowCopy)
    (later : CopiedInto (addMark middle stroke (fresh heap)) after stroke (children ++ [fresh heap]) color size rest
      restCopy) :
    CopiedInto heap after stroke children color size (.cons root below rest)
      (.cons (fresh heap) belowCopy restCopy) := by
  have added : fresh (addMark middle stroke (fresh heap)) = fresh middle := fresh_update middle stroke _
  have grown : fresh middle ≤ fresh after := added ▸ later.grown
  have elsewhere : ∀ ref, ref ≠ stroke → read (addMark middle stroke (fresh heap)) ref = read middle ref :=
    fun ref different => read_update_other middle stroke ref _ different
  have first_kept := first.made.kept after grown fun ref large small => by
    have different : ref ≠ stroke := fun same => Nat.not_lt_of_le large (same ▸ old)
    rw [later.kept ref (added.symm ▸ small) different, elsewhere ref different]
  have rest_same : ∀ ref ∈ rest.labels, read heap ref = read (addMark middle stroke (fresh heap)) ref := by
    intro ref member
    have different : ref ≠ stroke := fun same => apart (same ▸ member)
    rw [elsewhere ref different, first.kept ref (represented_old heap rest represented ref member)]
  have rest_new : ∀ ref ∈ restCopy.labels, fresh middle ≤ ref ∧ ref < fresh after := fun ref member =>
    added ▸ later.made.new ref member
  have first_once := first.made.once
  rw [Forest.labels, Forest.labels, List.append_nil] at first_once
  have first_new : ∀ ref ∈ fresh heap :: belowCopy.labels, ref < fresh middle := by
    intro ref member
    refine (first.made.new ref ?_).2
    rwa [Forest.labels, Forest.labels, List.append_nil]
  refine ⟨⟨?_, ?_, ?_, ?_⟩, first.grown.le.trans grown, ?_, ?_⟩
  · exact ⟨first_kept.represented.1, first_kept.represented.2.1, later.made.represented⟩
  · exact ⟨first_kept.alike.1, first_kept.alike.2.1,
      alike_congr _ heap after after rest restCopy rest_same (fun _ _ => rfl) later.made.alike⟩
  · intro ref member
    rcases (Forest.mem_labels ref (fresh heap) belowCopy restCopy).mp member with root | inside | last
    · exact first_kept.new ref ((Forest.mem_labels _ _ _ _).mpr (.inl root))
    · exact first_kept.new ref ((Forest.mem_labels _ _ _ _).mpr (.inr (.inl inside)))
    · exact ⟨first.grown.le.trans (rest_new ref last).1, (rest_new ref last).2⟩
  · rw [Forest.labels, ← List.cons_append]
    refine List.nodup_append.mpr ⟨first_once, later.made.once, ?_⟩
    intro one here other there same
    exact Nat.not_lt_of_le (rest_new other there).1 (same ▸ first_new one here)
  · intro ref small different
    rw [later.kept ref (added.symm ▸ small.trans first.grown) different, elsewhere ref different, first.kept ref small]
  · rw [later.stroke, List.append_assoc]
    rfl

-- By induction on the forest: each tree is copied with new objects and added to
-- the stroke, in a heap in which the trees to come are as they were.
theorem copies_into (plain : ∀ color, rebuilt color = color) (forest : Forest Ref) (heap : Heap (Mark UIColor))
    (depth : Nat) (stroke : Ref) (children : List Ref) (color : Option UIColor) (size : CGFloat)
    (deep : forest.height ≤ depth) (represented : Represents heap forest)
    (held : read heap stroke = some (.stroke children color size)) (apart : stroke ∉ forest.labels) :
    ∃ after copied, forest.roots.foldlM (addCopy (copyMark rebuilt depth) stroke) heap = some after ∧
      CopiedInto heap after stroke children color size forest copied := by
  induction forest generalizing heap depth stroke children color size with
  | nil =>
      refine ⟨heap, .nil, rfl, copied_nil heap heap, Nat.le_refl _, fun _ _ _ => rfl, ?_⟩
      rw [held, Forest.roots, List.append_nil]
  | cons root below rest ih_below ih_rest =>
      obtain ⟨held_root, held_below, held_rest⟩ := represented
      have both : below.height + 1 ≤ depth ∧ rest.height ≤ depth := max_le_iff.mp deep
      obtain ⟨lower, rfl⟩ : ∃ lower, depth = lower + 1 := Nat.exists_eq_add_of_le' (Nat.le_of_add_left_le both.1)
      have apart_rest : stroke ∉ rest.labels := fun member =>
        apart ((Forest.mem_labels stroke root below rest).mpr (.inr (.inr member)))
      have old := read_before_fresh heap stroke _ held
      obtain ⟨middle, belowCopy, copies, first⟩ := copy_tree rebuilt plain heap lower root below held_root held_below
        fun made stroke color size held_below held apart =>
          ih_below made lower stroke [] color size (Nat.le_of_succ_le_succ both.1) held_below held apart
      have middle_held := (first.kept stroke old).trans held
      have rest_held : Represents (addMark middle stroke (fresh heap)) rest := by
        refine represents_congr heap _ rest (fun ref member => ?_) held_rest
        have different : ref ≠ stroke := fun same => apart_rest (same ▸ member)
        rw [addMark, read_update_other middle stroke ref _ different,
          first.kept ref (represented_old heap rest held_rest ref member)]
      obtain ⟨after, restCopy, folded, later⟩ := ih_rest (addMark middle stroke (fresh heap)) (lower + 1) stroke
        (children ++ [fresh heap]) color size both.2 rest_held
        (add_copy_held middle stroke (fresh heap) children color size middle_held) apart_rest
      refine ⟨after, .cons (fresh heap) belowCopy restCopy, ?_, ?_⟩
      · rw [Forest.roots, List.foldlM_cons, addCopy, copies]
        exact folded
      · exact copied_cons heap middle after stroke root children color size below rest belowCopy restCopy old apart_rest
          held_rest first later

theorem add_copy_mono (copy other : Heap (Mark UIColor) → Ref → Option (Ref × Heap (Mark UIColor)))
    (same : ∀ heap mark result, copy heap mark = some result → other heap mark = some result) (strokeCopy : Ref)
    (heap : Heap (Mark UIColor)) (obj : Ref) (next : Heap (Mark UIColor))
    (added : addCopy copy strokeCopy heap obj = some next) : addCopy other strokeCopy heap obj = some next := by
  obtain ⟨copied, copies, placed⟩ := Option.map_eq_some_iff.mp added
  exact Option.map_eq_some_iff.mpr ⟨copied, same heap obj copied copies, placed⟩

-- A copy that returns does so at every greater depth.
theorem copy_deeper (depth : Nat) (heap : Heap (Mark UIColor)) (mark : Ref) (result : Ref × Heap (Mark UIColor))
    (copies : copyMark rebuilt depth heap mark = some result) :
    copyMark rebuilt (depth + 1) heap mark = some result := by
  induction depth generalizing heap mark result with
  | zero => cases copies
  | succ depth ih =>
      rw [copyMark] at copies ⊢
      cases held : read heap mark with
      | none => rw [held] at copies; cases copies
      | some object =>
          rw [held] at copies
          cases object with
          | stroke children color size =>
              obtain ⟨after, folded, same⟩ := Option.map_eq_some_iff.mp copies
              rw [run_fold] at folded
              have deeper := run_mono _ _ (add_copy_mono _ _ ih (fresh heap)) _ after children folded
              exact Option.map_eq_some_iff.mpr ⟨after, (run_fold _ _ _).trans deeper, same⟩
          | vertex location => exact copies
          | dots location color size => exact copies

theorem tree_copied (plain : ∀ color, rebuilt color = color) (heap : Heap (Mark UIColor)) (root : Ref)
    (marks : Forest Ref) (represented : Represents heap (.cons root marks .nil)) :
    ∃ after copied, (∀ depth, marks.height < depth → copyMark rebuilt depth heap root = some (fresh heap, after)) ∧
      CopiedTree heap after root marks copied := by
  obtain ⟨held, held_marks, -⟩ := represented
  obtain ⟨after, copied, copies, tree⟩ := copy_tree rebuilt plain heap marks.height root marks held held_marks
    fun made stroke color size held_marks held apart =>
      copies_into rebuilt plain marks made marks.height stroke [] color size (Nat.le_refl _) held_marks held apart
  refine ⟨after, copied, fun depth deep => ?_, tree⟩
  exact Nat.le_induction copies (fun depth _ ih => copy_deeper rebuilt depth heap root _ ih) depth deep

end CultivationMotain.TouchPainter

import CultivationMotain.Library.OrderedForest
import CultivationMotain.TouchPainter.Mark

set_option autoImplicit false

namespace CultivationMotain.TouchPainter

open ObjectHeap OrderedForest

variable {UIColor : Type}

def childrenAt (heap : Heap (Mark UIColor)) (ref : Ref) : Option (List Ref) := (read heap ref).map Mark.children

-- The composite trees that the heap holds, by their roots.
def Represents (heap : Heap (Mark UIColor)) : Forest Ref → Prop
  | .nil => True
  | .cons ref children rest =>
      childrenAt heap ref = some children.roots ∧ Represents heap children ∧ Represents heap rest

structure MarkRemoved (heap after : Heap (Mark UIColor)) (root : Ref) (marks : Forest Ref) (mark : Ref) : Prop where
  represented : Represents after (.cons root (marks.prune mark) .nil)
  removed : mark ∉ (marks.prune mark).labels
  subtree : ∀ below, Forest.Has mark below marks → ∀ ref ∈ below.labels, ref ∉ (marks.prune mark).labels
  stays : ∀ ref ∈ marks.labels, ref ∈ (marks.prune mark).labels ∨
    ∃ below, Forest.Has mark below marks ∧ (ref = mark ∨ ref ∈ below.labels)
  order : ∀ ref ∈ root :: marks.labels, childrenAt after ref = (childrenAt heap ref).map (List.filter (· ≠ mark))
  others : ∀ ref, ref ∉ root :: marks.labels → read after ref = read heap ref
  absent : mark ∉ marks.labels → after = heap

section Representation

variable (heap after : Heap (Mark UIColor)) (forest : Forest Ref)

theorem represents_congr (same : ∀ ref ∈ forest.labels, read after ref = read heap ref)
    (represented : Represents heap forest) : Represents after forest := by
  induction forest with
  | nil => trivial
  | cons ref children rest ih_children ih_rest =>
      obtain ⟨held, below, later⟩ := represented
      refine ⟨?_, ih_children (fun other member => ?_) below, ih_rest (fun other member => ?_) later⟩
      · rw [childrenAt, same ref List.mem_cons_self]
        exact held
      · exact same other (List.mem_cons_of_mem _ (List.mem_append_left _ member))
      · exact same other (List.mem_cons_of_mem _ (List.mem_append_right _ member))

theorem children_inside (represented : Represents heap forest) (ref child : Ref) (children : List Ref)
    (member : ref ∈ forest.labels) (held : childrenAt heap ref = some children) (listed : child ∈ children) :
    child ∈ forest.labels := by
  induction forest with
  | nil => cases member
  | cons root below rest ih_below ih_rest =>
      obtain ⟨held_root, held_below, held_rest⟩ := represented
      rw [Forest.mem_labels]
      rcases (Forest.mem_labels ref root below rest).mp member with rfl | inside | later
      · obtain rfl := Option.some.inj (held_root.symm.trans held)
        exact .inr (.inl (Forest.roots_subset below listed))
      · exact .inr (.inl (ih_below held_below inside))
      · exact .inr (.inr (ih_rest held_rest later))

theorem root_no_child (represented : Represents heap forest) (nodup : forest.labels.Nodup) (root ref : Ref)
    (children : List Ref) (top : root ∈ forest.roots) (member : ref ∈ forest.labels)
    (held : childrenAt heap ref = some children) : root ∉ children := by
  intro listed
  induction forest with
  | nil => cases top
  | cons first below rest _ ih_rest =>
      have distinct := Forest.distinct_of_nodup first below rest nodup
      obtain ⟨held_first, held_below, held_rest⟩ := represented
      have not_below : root ∉ below.labels := by
        rcases List.mem_cons.mp top with rfl | later
        · exact distinct.root_children
        · exact fun inside => distinct.apart root inside (Forest.roots_subset rest later)
      rcases (Forest.mem_labels ref first below rest).mp member with rfl | inside | later
      · obtain rfl := Option.some.inj (held_first.symm.trans held)
        exact not_below (Forest.roots_subset below listed)
      · exact not_below (children_inside heap below held_below ref root children inside held listed)
      · rcases List.mem_cons.mp top with rfl | top_rest
        · exact distinct.root_rest (children_inside heap rest held_rest ref root children later held listed)
        · exact ih_rest held_rest distinct.later top_rest later

end Representation

section Removal

variable (mark : Ref)

-- The marks of the tree lose the one child, all other objects are as they were.
def Dropped (heap after : Heap (Mark UIColor)) (refs : List Ref) : Prop :=
  ∀ ref, read after ref = if ref ∈ refs then (read heap ref).map (removeObject mark) else read heap ref

theorem remove_absent (object : Mark UIColor) (absent : mark ∉ object.children) :
    removeObject mark object = object := by
  cases object with
  | stroke children color size =>
      have kept : children.filter (· ≠ mark) = children :=
        List.filter_eq_self.mpr fun child member => decide_eq_true fun same => absent (same ▸ member)
      rw [removeObject, kept]
  | vertex location => rfl
  | dots location color size => rfl

theorem read_absent (heap : Heap (Mark UIColor)) (ref : Ref)
    (absent : ∀ children, childrenAt heap ref = some children → mark ∉ children) :
    (read heap ref).map (removeObject mark) = read heap ref := by
  cases held : read heap ref with
  | none => rfl
  | some object =>
      have kept := remove_absent mark object (absent object.children (by rw [childrenAt, held]; rfl))
      rw [Option.map_some, kept]

theorem direct_dropped (heap : Heap (Mark UIColor)) (root : Ref) (marks : Forest Ref)
    (represented : Represents heap marks) (nodup : marks.labels.Nodup) (direct : mark ∈ marks.roots) :
    Dropped mark heap (update heap root (removeObject mark)) (root :: marks.labels) := by
  intro ref
  rw [read_update]
  by_cases same : ref = root
  · rw [if_pos same, if_pos (List.mem_cons.mpr (.inl same))]
  · rw [if_neg same]
    by_cases member : ref ∈ marks.labels
    · rw [if_pos (List.mem_cons_of_mem _ member)]
      refine (read_absent mark heap ref fun children held => ?_).symm
      exact root_no_child heap marks represented nodup mark ref children direct member held
    · rw [if_neg (fun listed => (List.mem_cons.mp listed).elim same member)]

theorem indirect_dropped (heap after : Heap (Mark UIColor)) (root : Ref) (marks : Forest Ref)
    (held : childrenAt heap root = some marks.roots) (fresh : root ∉ marks.labels) (indirect : mark ∉ marks.roots)
    (dropped : Dropped mark heap after marks.labels) : Dropped mark heap after (root :: marks.labels) := by
  intro ref
  rw [dropped ref]
  by_cases same : ref = root
  · subst same
    rw [if_neg fresh, if_pos List.mem_cons_self]
    refine (read_absent mark heap ref fun children held' => ?_).symm
    rwa [← Option.some.inj (held.symm.trans held')]
  · by_cases member : ref ∈ marks.labels
    · rw [if_pos member, if_pos (List.mem_cons_of_mem _ member)]
    · rw [if_neg member, if_neg (fun listed => (List.mem_cons.mp listed).elim same member)]

-- A leaf has no roots below it, over which its subtree would be searched.
theorem remove_mark_dropped (heap : Heap (Mark UIColor)) (depth : Nat) (root : Ref) (marks : Forest Ref)
    (held : childrenAt heap root = some marks.roots) (represented : Represents heap marks)
    (fresh : root ∉ marks.labels) (nodup : marks.labels.Nodup)
    (descends : ∃ after, marks.roots.foldlM (fun heap child => removeMark depth heap child mark) heap = some after ∧
      Dropped mark heap after marks.labels) :
    ∃ after, removeMark (depth + 1) heap root mark = some after ∧ Dropped mark heap after (root :: marks.labels) := by
  obtain ⟨after, folded, dropped⟩ := descends
  have searched : mark ∉ marks.roots → Dropped mark heap after (root :: marks.labels) :=
    fun indirect => indirect_dropped mark heap after root marks held fresh indirect dropped
  obtain ⟨object, present, roots⟩ := Option.map_eq_some_iff.mp held
  rw [removeMark, present]
  cases object with
  | stroke children color size =>
      obtain rfl : children = marks.roots := roots
      by_cases direct : mark ∈ marks.roots
      · exact ⟨_, if_pos direct, direct_dropped mark heap root marks represented nodup direct⟩
      · exact ⟨after, (if_neg direct).trans folded, searched direct⟩
  | vertex location =>
      have leaf : marks.roots = [] := roots.symm
      rw [leaf] at folded
      exact ⟨after, folded, searched (leaf ▸ List.not_mem_nil)⟩
  | dots location color size =>
      have leaf : marks.roots = [] := roots.symm
      rw [leaf] at folded
      exact ⟨after, folded, searched (leaf ▸ List.not_mem_nil)⟩

-- By induction on the forest: the trees are searched one after the other, each
-- in a heap in which the trees to come are as they were.
theorem remove_all_dropped (heap : Heap (Mark UIColor)) (depth : Nat) (forest : Forest Ref)
    (deep : forest.height ≤ depth) (represented : Represents heap forest) (nodup : forest.labels.Nodup) :
    ∃ after, forest.roots.foldlM (fun heap child => removeMark depth heap child mark) heap = some after ∧
      Dropped mark heap after forest.labels := by
  induction forest generalizing heap depth with
  | nil => exact ⟨heap, rfl, fun ref => rfl⟩
  | cons root below rest ih_below ih_rest =>
      obtain ⟨held, held_below, held_rest⟩ := represented
      have distinct := Forest.distinct_of_nodup root below rest nodup
      have both : below.height + 1 ≤ depth ∧ rest.height ≤ depth := max_le_iff.mp deep
      obtain ⟨lower, rfl⟩ : ∃ lower, depth = lower + 1 := Nat.exists_eq_add_of_le' (Nat.le_of_add_left_le both.1)
      obtain ⟨middle, removed, dropped⟩ := remove_mark_dropped mark heap lower root below held held_below
        distinct.root_children distinct.below
        (ih_below heap lower (Nat.le_of_succ_le_succ both.1) held_below distinct.below)
      have apart : ∀ ref ∈ rest.labels, ref ∉ root :: below.labels := by
        intro ref later listed
        rcases List.mem_cons.mp listed with rfl | inside
        · exact distinct.root_rest later
        · exact distinct.apart ref inside later
      have untouched : ∀ ref ∈ rest.labels, read middle ref = read heap ref :=
        fun ref later => (dropped ref).trans (if_neg (apart ref later))
      obtain ⟨after, all_removed, all_dropped⟩ := ih_rest middle (lower + 1) both.2
        (represents_congr heap middle rest untouched held_rest) distinct.later
      refine ⟨after, ?_, ?_⟩
      · rw [Forest.roots, List.foldlM_cons, removed]
        exact all_removed
      · intro ref
        rw [all_dropped ref]
        by_cases later : ref ∈ rest.labels
        · rw [if_pos later, untouched ref later,
            if_pos ((Forest.mem_labels ref root below rest).mpr (.inr (.inr later)))]
        · have first : ref ∈ (Forest.cons root below rest).labels ↔ ref ∈ root :: below.labels := by
            rw [Forest.mem_labels, List.mem_cons]
            exact or_congr_right (or_iff_left later)
          rw [if_neg later, dropped ref]
          exact (if_congr first rfl rfl).symm

theorem removed_children (object : Mark UIColor) :
    (removeObject mark object).children = object.children.filter (· ≠ mark) := by
  cases object <;> rfl

theorem dropped_children (heap after : Heap (Mark UIColor)) (refs : List Ref) (dropped : Dropped mark heap after refs)
    (ref : Ref) (member : ref ∈ refs) :
    childrenAt after ref = (childrenAt heap ref).map (List.filter (· ≠ mark)) := by
  rw [childrenAt, dropped ref, if_pos member, childrenAt, Option.map_map, Option.map_map]
  exact congrArg (fun change => (read heap ref).map change) (funext (removed_children mark))

theorem dropped_represents (heap after : Heap (Mark UIColor)) (forest : Forest Ref) (refs : List Ref)
    (dropped : Dropped mark heap after refs) (inside : ∀ ref ∈ forest.labels, ref ∈ refs)
    (represented : Represents heap forest) : Represents after (forest.prune mark) := by
  induction forest with
  | nil => trivial
  | cons root below rest ih_below ih_rest =>
      obtain ⟨held, held_below, held_rest⟩ := represented
      have rest_pruned := ih_rest
        (fun ref later => inside ref (List.mem_cons_of_mem _ (List.mem_append_right _ later))) held_rest
      rw [Forest.prune]
      by_cases same : root = mark
      · rwa [if_pos same]
      · rw [if_neg same]
        refine ⟨?_, ih_below (fun ref lower => ?_) held_below, rest_pruned⟩
        · rw [dropped_children mark heap after refs dropped root (inside root List.mem_cons_self), held,
            Option.map_some, Forest.prune_roots]
        · exact inside ref (List.mem_cons_of_mem _ (List.mem_append_left _ lower))

theorem dropped_absent (heap after : Heap (Mark UIColor)) (refs : List Ref) (dropped : Dropped mark heap after refs)
    (absent : ∀ ref ∈ refs, ∀ children, childrenAt heap ref = some children → mark ∉ children) : after = heap := by
  refine List.ext_getElem? fun ref => (dropped ref).trans ?_
  by_cases member : ref ∈ refs
  · exact (if_pos member).trans (read_absent mark heap ref (absent ref member))
  · exact if_neg member

theorem dropped_unique (heap after other : Heap (Mark UIColor)) (refs : List Ref)
    (dropped : Dropped mark heap after refs) (also_dropped : Dropped mark heap other refs) : after = other :=
  List.ext_getElem? fun ref => (dropped ref).trans (also_dropped ref).symm

theorem dropped_removed (heap after : Heap (Mark UIColor)) (root : Ref) (marks : Forest Ref)
    (held : childrenAt heap root = some marks.roots) (represented : Represents heap marks) (nodup : marks.labels.Nodup)
    (dropped : Dropped mark heap after (root :: marks.labels)) : MarkRemoved heap after root marks mark where
  represented := by
    refine ⟨?_, ?_, trivial⟩
    · rw [dropped_children mark heap after _ dropped root List.mem_cons_self, held, Option.map_some, Forest.prune_roots]
    · exact dropped_represents mark heap after marks _ dropped (fun ref => List.mem_cons_of_mem root) represented
  removed := Forest.prune_gone mark marks
  subtree below has ref member := Forest.prune_below mark marks below nodup has ref member
  stays ref member := Forest.prune_stays mark ref marks member
  order ref member := dropped_children mark heap after _ dropped ref member
  others ref outside := (dropped ref).trans (if_neg outside)
  absent := by
    intro nowhere
    refine dropped_absent mark heap after _ dropped fun ref member children held' listed => nowhere ?_
    rcases List.mem_cons.mp member with rfl | inside
    · obtain rfl := Option.some.inj (held.symm.trans held')
      exact Forest.roots_subset marks listed
    · exact children_inside heap marks represented ref mark children inside held' listed

theorem mark_removed (heap : Heap (Mark UIColor)) (root : Ref) (marks : Forest Ref)
    (represented : Represents heap (.cons root marks .nil)) (once : (root :: marks.labels).Nodup) :
    ∃ after, (∀ depth, marks.height < depth → removeMark depth heap root mark = some after) ∧
      MarkRemoved heap after root marks mark := by
  obtain ⟨held, held_marks, -⟩ := represented
  obtain ⟨fresh, nodup⟩ := List.nodup_cons.mp once
  have removes : ∀ depth, marks.height ≤ depth → ∃ after, removeMark (depth + 1) heap root mark = some after ∧
      Dropped mark heap after (root :: marks.labels) :=
    fun depth deep => remove_mark_dropped mark heap depth root marks held held_marks fresh nodup
      (remove_all_dropped mark heap depth marks deep held_marks nodup)
  obtain ⟨after, -, dropped⟩ := removes marks.height (Nat.le_refl _)
  refine ⟨after, ?_, dropped_removed mark heap after root marks held held_marks nodup dropped⟩
  intro depth deep
  obtain ⟨lower, rfl⟩ := Nat.exists_eq_add_of_lt deep
  obtain ⟨other, removed, also_dropped⟩ := removes (marks.height + lower) (Nat.le_add_right _ _)
  rw [removed, dropped_unique mark heap after other _ dropped also_dropped]

-- A stroke with a dot and a stroke of two vertices, of which the first goes.
def twoStrokes : Heap (Mark Nat) :=
  [.stroke [1, 2] none 1, .dots ⟨0, 0⟩ (some 7) 2, .stroke [3, 4] (some 7) 1, .vertex ⟨1, 0⟩, .vertex ⟨1, 1⟩]

theorem two_strokes_removed :
    ∃ after, (∀ depth, 2 < depth → removeMark depth twoStrokes 0 3 = some after) ∧
      MarkRemoved twoStrokes after 0
        (.cons 1 .nil (.cons 2 (.cons 3 .nil (.cons 4 .nil .nil)) .nil)) 3 :=
  mark_removed 3 twoStrokes 0 (.cons 1 .nil (.cons 2 (.cons 3 .nil (.cons 4 .nil .nil)) .nil))
    ⟨rfl, ⟨rfl, trivial, rfl, ⟨rfl, trivial, rfl, trivial, trivial⟩, trivial⟩, trivial⟩ (by decide)

end Removal

end CultivationMotain.TouchPainter

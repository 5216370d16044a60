import CultivationMotain.Library.HeapReach
import CultivationMotain.Library.Runs
import CultivationMotain.TouchPainter.MarkCopy

set_option autoImplicit false

namespace CultivationMotain.TouchPainter

open Foundation HeapReach ObjectHeap OrderedForest Runs

variable {UIColor : Type}

-- The depth is that of the calls which a removeMark: may be nested in.
inductive Event (UIColor : Type) where
  | newStroke
  | newVertex (location : CGPoint)
  | newDots (location : CGPoint)
  | addMark (receiver mark : Ref)
  | removeMark (depth : Nat) (receiver mark : Ref)
  | setColor (receiver : Ref) (color : Option UIColor)
  | setSize (receiver : Ref) (size : CGFloat)
  | setLocation (receiver : Ref) (location : CGPoint)

def step (heap : Heap (Mark UIColor)) : Event UIColor → Option (Heap (Mark UIColor))
  | .newStroke => some (alloc heap (.stroke [] none 0))
  | .newVertex location => some (alloc heap (.vertex location))
  | .newDots location => some (alloc heap (.dots location none 0))
  | .addMark receiver mark => some (addMark heap receiver mark)
  | .removeMark depth receiver mark => removeMark depth heap receiver mark
  | .setColor receiver color => some (update heap receiver (setColor color))
  | .setSize receiver size => some (update heap receiver (setSize size))
  | .setLocation receiver location => some (update heap receiver (setLocation location))

def Event.receiver : Event UIColor → Option Ref
  | .newStroke | .newVertex _ | .newDots _ => none
  | .addMark receiver _ | .removeMark _ receiver _ => some receiver
  | .setColor receiver _ | .setSize receiver _ | .setLocation receiver _ => some receiver

-- The call is one on a node of the tree with this root, as the tree is then.
def OnNodesOf (root : Ref) (before : Heap (Mark UIColor)) (event : Event UIColor) (_ : Heap (Mark UIColor)) : Prop :=
  ∀ receiver, event.receiver = some receiver → Reaches Mark.children before root receiver

-- No mark is added from which one of the others can be reached.
def AddsApart (others : List Ref) (before : Heap (Mark UIColor)) (event : Event UIColor) (_ : Heap (Mark UIColor)) :
    Prop :=
  ∀ receiver mark, event = .addMark receiver mark → Apart Mark.children before others mark

def OthersKept (start : Heap (Mark UIColor)) (others : List Ref) (_ : Heap (Mark UIColor)) (_ : Event UIColor)
    (after : Heap (Mark UIColor)) : Prop :=
  ∀ ref ∈ others, read after ref = read start ref

def Independent (start : Heap (Mark UIColor)) (root : Ref) (others : List Ref) : Prop :=
  ∀ events, Steps step (fun before event after => OnNodesOf root before event after ∧
    AddsApart others before event after) start events → Steps step (OthersKept start others) start events

-- Links are only lost, and only objects that the receiver reaches change.
structure Pruned (heap after : Heap (Mark UIColor)) (receiver : Ref) : Prop where
  links : ∀ one other, Linked Mark.children after one other → Linked Mark.children heap one other
  outside : ∀ ref, ¬ Reaches Mark.children heap receiver ref → read after ref = read heap ref

theorem pruned_refl (heap : Heap (Mark UIColor)) (receiver : Ref) : Pruned heap heap receiver :=
  ⟨fun _ _ link => link, fun _ _ => rfl⟩

theorem pruned_below (heap middle after : Heap (Mark UIColor)) (receiver child : Ref)
    (first : Pruned heap middle receiver) (reached : Reaches Mark.children heap receiver child)
    (second : Pruned middle after child) : Pruned heap after receiver := by
  refine ⟨fun one other link => first.links one other (second.links one other link), fun ref outside => ?_⟩
  have not_reached : ¬ Reaches Mark.children middle child ref := fun path =>
    outside (reached.trans (reaches_mono Mark.children heap middle first.links child ref path))
  rw [second.outside ref not_reached, first.outside ref outside]

theorem remove_object_pruned (heap : Heap (Mark UIColor)) (receiver mark : Ref) :
    Pruned heap (update heap receiver (removeObject mark)) receiver := by
  refine ⟨fun one other link => ?_, fun ref outside => ?_⟩
  · cases linked_update Mark.children heap receiver (removeObject mark) one other link with
    | inl old => exact old
    | inr changed =>
        obtain ⟨object, held, same, listed⟩ := changed
        rw [removed_children] at listed
        exact ⟨object, same ▸ held, List.mem_of_mem_filter listed⟩
  · refine read_update_other heap receiver ref _ fun same => outside ?_
    rw [same]
    exact reaches_self Mark.children heap receiver

theorem remove_mark_pruned (depth : Nat) (heap after : Heap (Mark UIColor)) (receiver mark : Ref)
    (removed : removeMark depth heap receiver mark = some after) : Pruned heap after receiver := by
  induction depth generalizing heap after receiver with
  | zero => cases removed
  | succ depth ih =>
      rw [removeMark] at removed
      cases held : read heap receiver with
      | none =>
          rw [held] at removed
          cases removed
          exact pruned_refl heap receiver
      | some object =>
          rw [held] at removed
          cases object with
          | stroke children color size =>
              by_cases direct : mark ∈ children
              · cases (if_pos direct).symm.trans removed
                exact remove_object_pruned heap receiver mark
              · have folded := (if_neg direct).symm.trans removed
                rw [run_fold] at folded
                have reached : ∀ child ∈ children, Reaches Mark.children heap receiver child :=
                  fun child listed => .single ⟨_, held, listed⟩
                refine run_invariant _ (fun middle => Pruned heap middle receiver) _ ?_ heap after children reached
                  folded (pruned_refl heap receiver)
                intro middle child next pruned below taken
                exact pruned_below heap middle next receiver child pruned below (ih middle next child taken)
          | vertex location =>
              cases removed
              exact pruned_refl heap receiver
          | dots location color size =>
              cases removed
              exact pruned_refl heap receiver

-- What a step leaves as it was, where others are the marks of the other tree.
structure StepApart (others : List Ref) (before after : Heap (Mark UIColor)) : Prop where
  links : ∀ one other, Linked Mark.children after one other →
    Linked Mark.children before one other ∨ Apart Mark.children before others other
  kept : ∀ ref ∈ others, read after ref = read before ref

theorem new_object_apart (others : List Ref) (heap : Heap (Mark UIColor)) (object : Mark UIColor)
    (empty : object.children = []) (old : ∀ ref ∈ others, ref < fresh heap) :
    StepApart others heap (alloc heap object) where
  links one other link := .inl (linked_alloc Mark.children heap object empty one other link)
  kept ref member := by rw [read_alloc, if_neg (Nat.ne_of_lt (old ref member))]

theorem update_apart (others : List Ref) (heap : Heap (Mark UIColor)) (receiver : Ref)
    (change : Mark UIColor → Mark UIColor) (apart : Apart Mark.children heap others receiver)
    (links : ∀ object : Mark UIColor, ∀ child ∈ (change object).children,
      child ∈ object.children ∨ Apart Mark.children heap others child) :
    StepApart others heap (update heap receiver change) where
  links one other link := by
    cases linked_update Mark.children heap receiver change one other link with
    | inl old => exact .inl old
    | inr changed =>
        obtain ⟨object, held, same, listed⟩ := changed
        exact (links object other listed).imp_left fun kept => ⟨object, same ▸ held, kept⟩
  kept ref member := by
    refine read_update_other heap receiver ref change fun same => ?_
    exact not_mem_apart Mark.children heap others receiver apart (same ▸ member)

theorem add_object_links (object : Mark UIColor) (mark child : Ref)
    (listed : child ∈ (addObject mark object).children) :
    child ∈ object.children ∨ child = mark := by
  cases object with
  | stroke children color size => exact (List.mem_append.mp listed).imp_right List.mem_singleton.mp
  | vertex location => cases listed
  | dots location color size => cases listed

theorem set_color_children (color : Option UIColor) (object : Mark UIColor) :
    (setColor color object).children = object.children := by
  cases object <;> rfl

theorem set_size_children (size : CGFloat) (object : Mark UIColor) :
    (setSize size object).children = object.children := by
  cases object <;> rfl

theorem set_location_children (location : CGPoint) (object : Mark UIColor) :
    (setLocation location object).children = object.children := by
  cases object <;> rfl

theorem step_apart (root : Ref) (others : List Ref) (before after : Heap (Mark UIColor)) (event : Event UIColor)
    (old : ∀ ref ∈ others, ref < fresh before) (apart : Apart Mark.children before others root)
    (on : OnNodesOf root before event after) (adds : AddsApart others before event after)
    (taken : step before event = some after) : StepApart others before after := by
  have receiver_apart : ∀ receiver, event.receiver = some receiver → Apart Mark.children before others receiver :=
    fun receiver sent => apart_reached Mark.children before others root receiver apart (on receiver sent)
  cases event with
  | newStroke =>
      cases taken
      exact new_object_apart others before _ rfl old
  | newVertex location =>
      cases taken
      exact new_object_apart others before _ rfl old
  | newDots location =>
      cases taken
      exact new_object_apart others before _ rfl old
  | addMark receiver mark =>
      cases taken
      refine update_apart others before receiver _ (receiver_apart receiver rfl) fun object child listed => ?_
      cases add_object_links object mark child listed with
      | inl kept => exact .inl kept
      | inr same =>
          rw [same]
          exact .inr (adds receiver mark rfl)
  | removeMark depth receiver mark =>
      have pruned := remove_mark_pruned depth before after receiver mark taken
      exact ⟨fun one other link => .inl (pruned.links one other link),
        fun ref member => pruned.outside ref (receiver_apart receiver rfl ref member)⟩
  | setColor receiver color =>
      cases taken
      exact update_apart others before receiver _ (receiver_apart receiver rfl) fun object child listed =>
        .inl (set_color_children color object ▸ listed)
  | setSize receiver size =>
      cases taken
      exact update_apart others before receiver _ (receiver_apart receiver rfl) fun object child listed =>
        .inl (set_size_children size object ▸ listed)
  | setLocation receiver location =>
      cases taken
      exact update_apart others before receiver _ (receiver_apart receiver rfl) fun object child listed =>
        .inl (set_location_children location object ▸ listed)

-- The other marks are as at the start, and the root reaches none of them.
theorem independent_of_apart (start : Heap (Mark UIColor)) (root : Ref) (others : List Ref)
    (old : ∀ ref ∈ others, ref < fresh start) (apart : Apart Mark.children start others root) :
    Independent start root others := by
  intro events allowed
  refine steps_of_condition step
    (fun heap => (∀ ref ∈ others, read heap ref = read start ref) ∧ Apart Mark.children heap others root) _ _ ?_
    start events ⟨fun _ _ => rfl, apart⟩ allowed
  intro before event after invariant taken condition
  obtain ⟨same, apart_now⟩ := invariant
  have old_now : ∀ ref ∈ others, ref < fresh before := by
    intro ref member
    obtain ⟨object, held⟩ : ∃ object, read start ref = some object := ⟨_, List.getElem?_eq_getElem (old ref member)⟩
    exact read_before_fresh before ref object ((same ref member).trans held)
  have stepped := step_apart root others before after event old_now apart_now condition.1 condition.2 taken
  have kept : ∀ ref ∈ others, read after ref = read start ref := fun ref member =>
    (stepped.kept ref member).trans (same ref member)
  exact ⟨kept, kept, apart_kept Mark.children before after others root stepped.links apart_now⟩

theorem tree_reaches_inside (heap : Heap (Mark UIColor)) (root : Ref) (marks : Forest Ref)
    (represented : Represents heap (.cons root marks .nil)) (ref : Ref)
    (path : Reaches Mark.children heap root ref) : ref ∈ (Forest.cons root marks .nil).labels := by
  refine reaches_inside Mark.children heap _ (fun one member next link => ?_) root ref List.mem_cons_self path
  obtain ⟨object, held, listed⟩ := link
  have children : childrenAt heap one = some object.children := by rw [childrenAt, held, Option.map_some]
  exact children_inside heap _ represented one next object.children member children listed

-- The first root is copied to the mark allocated first.
theorem copy_independent (rebuilt : Option UIColor → Option UIColor) (plain : ∀ color, rebuilt color = color)
    (heap : Heap (Mark UIColor)) (root : Ref) (marks : Forest Ref)
    (represented : Represents heap (.cons root marks .nil)) :
    ∃ after copied, (∀ depth, marks.height < depth → copyMark rebuilt depth heap root = some (fresh heap, after)) ∧
      CopiedTree heap after root marks copied ∧
      (∀ ref ∈ (Forest.cons (fresh heap) copied .nil).labels, ref ∉ (Forest.cons root marks .nil).labels) ∧
      Independent after root (Forest.cons (fresh heap) copied .nil).labels ∧
      Independent after (fresh heap) (Forest.cons root marks .nil).labels := by
  obtain ⟨after, copied, copies, tree⟩ := tree_copied rebuilt plain heap root marks represented
  have original := represented_old heap _ represented
  have unshared : ∀ ref ∈ (Forest.cons (fresh heap) copied .nil).labels, ref ∉ (Forest.cons root marks .nil).labels :=
    fun ref new old => Nat.not_lt_of_le (tree.made.new ref new).1 (original ref old)
  have still := represents_congr heap after _ (fun ref member => tree.kept ref (original ref member)) represented
  refine ⟨after, copied, copies, tree, unshared, ?_, ?_⟩
  · refine independent_of_apart after root _ (fun ref new => (tree.made.new ref new).2) fun ref new path => ?_
    exact unshared ref new (tree_reaches_inside after root marks still ref path)
  · refine independent_of_apart after (fresh heap) _ (fun ref old => (original ref old).trans tree.grown)
      fun ref old path => ?_
    exact unshared ref (tree_reaches_inside after (fresh heap) copied tree.made.represented ref path) old

theorem two_strokes_copied :
    ∃ after copied, (∀ depth, 2 < depth → copyMark id depth twoStrokes 0 = some (5, after)) ∧
      CopiedTree twoStrokes after 0 (.cons 1 .nil (.cons 2 (.cons 3 .nil (.cons 4 .nil .nil)) .nil)) copied ∧
      (∀ ref ∈ (Forest.cons 5 copied .nil).labels, ref ∉ [0, 1, 2, 3, 4]) ∧
      Independent after 0 (Forest.cons 5 copied .nil).labels ∧ Independent after 5 [0, 1, 2, 3, 4] :=
  copy_independent id (fun _ => rfl) twoStrokes 0 (.cons 1 .nil (.cons 2 (.cons 3 .nil (.cons 4 .nil .nil)) .nil))
    ⟨rfl, ⟨rfl, trivial, rfl, ⟨rfl, trivial, rfl, trivial, trivial⟩, trivial⟩, trivial⟩

-- A stroke in a stroke, with a vertex.
def nestedStroke : Heap (Mark Nat) := [.stroke [1] none 1, .stroke [2] none 1, .vertex ⟨0, 0⟩]

-- The inner stroke is added to the copy, through which its vertex then goes.
theorem shared_mark_changed :
    ∃ after, copyMark id 3 nestedStroke 0 = some (3, after) ∧
      ¬ ∀ events, Steps step (OnNodesOf 3) after events → Steps step (OthersKept after [0, 1, 2]) after events := by
  refine ⟨_, rfl, fun all => ?_⟩
  have kept := all [.addMark 3 1, .removeMark 3 3 2] ?_
  · obtain ⟨-, later⟩ := kept _ rfl
    obtain ⟨same, -⟩ := later _ rfl
    exact absurd (same 1 (by decide)) (by decide)
  · intro next _
    refine ⟨fun receiver sent => ?_, fun last _ => ⟨fun receiver sent => ?_, trivial⟩⟩
    · cases sent
      exact reaches_self Mark.children _ 3
    · cases sent
      exact reaches_self Mark.children _ 3

end CultivationMotain.TouchPainter

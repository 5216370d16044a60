import CultivationMotain.Foundation.Geometry
import CultivationMotain.Library.ObjectHeap

set_option autoImplicit false

namespace CultivationMotain.TouchPainter

open Foundation ObjectHeap

variable {UIColor : Type}

-- The three classes of marks; a mark is known by its reference.
inductive Mark (UIColor : Type) where
  | stroke (children : List Ref) (color : Option UIColor) (size : CGFloat)
  | vertex (location : CGPoint)
  | dots (location : CGPoint) (color : Option UIColor) (size : CGFloat)
deriving DecidableEq, Repr

def Mark.children : Mark UIColor → List Ref
  | .stroke children _ _ => children
  | .vertex _ => []
  | .dots _ _ _ => []

def addObject (mark : Ref) : Mark UIColor → Mark UIColor
  | .stroke children color size => .stroke (children ++ [mark]) color size
  | leaf => leaf

def removeObject (mark : Ref) : Mark UIColor → Mark UIColor
  | .stroke children color size => .stroke (children.filter (· ≠ mark)) color size
  | leaf => leaf

-- A leaf ignores the message.
def addMark (heap : Heap (Mark UIColor)) (receiver mark : Ref) : Heap (Mark UIColor) :=
  update heap receiver (addObject mark)

-- None is a message sent deeper than the given number of calls. A message to no
-- object does nothing.
def removeMark : Nat → Heap (Mark UIColor) → Ref → Ref → Option (Heap (Mark UIColor))
  | 0, _, _, _ => none
  | depth + 1, heap, receiver, mark =>
      match read heap receiver with
      | some (.stroke children _ _) =>
          if mark ∈ children then some (update heap receiver (removeObject mark))
          else children.foldlM (fun heap child => removeMark depth heap child mark) heap
      | some (.vertex _) => some heap
      | some (.dots _ _ _) => some heap
      | none => some heap

end CultivationMotain.TouchPainter

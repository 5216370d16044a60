import CultivationMotain.Foundation.Geometry

set_option autoImplicit false

namespace CultivationMotain.Foundation

universe u

inductive LayoutAttribute where
  | leading
  | trailing
  | top
  | bottom
  | width
  | height
  | centerY
deriving DecidableEq, Repr

-- The layout runs from left to right.
@[simp] def LayoutAttribute.value (frame : CGRect) : LayoutAttribute → CGFloat
  | .leading => frame.x
  | .trailing => frame.x + frame.width
  | .top => frame.y
  | .bottom => frame.y + frame.height
  | .width => frame.width
  | .height => frame.height
  | .centerY => frame.y + frame.height / 2

structure MASViewAttribute (V : Type u) where
  view : V
  layoutAttribute : LayoutAttribute
deriving DecidableEq, Repr

-- The first attribute is the second one, if there is one, and the constant.
structure MASConstraint (V : Type u) where
  firstViewAttribute : MASViewAttribute V
  secondViewAttribute : Option (MASViewAttribute V)
  layoutConstant : CGFloat
deriving DecidableEq, Repr

section Constraints

variable {V : Type u}

@[simp] def MASViewAttribute.value (frames : V → CGRect) (viewAttribute : MASViewAttribute V) : CGFloat :=
  viewAttribute.layoutAttribute.value (frames viewAttribute.view)

@[simp] def secondValue (frames : V → CGRect) (second : Option (MASViewAttribute V)) : CGFloat :=
  (second.map (MASViewAttribute.value frames)).getD 0

-- A constraint is an equation, without a priority.
@[simp] def Satisfies (frames : V → CGRect) (constraint : MASConstraint V) : Prop :=
  constraint.firstViewAttribute.value frames =
    secondValue frames constraint.secondViewAttribute + constraint.layoutConstant

def SatisfiesAll (frames : V → CGRect) (constraints : List (MASConstraint V)) : Prop :=
  ∀ constraint ∈ constraints, Satisfies frames constraint

theorem satisfies_append (frames : V → CGRect) (first second : List (MASConstraint V)) :
    SatisfiesAll frames (first ++ second) ↔ SatisfiesAll frames first ∧ SatisfiesAll frames second :=
  List.forall_mem_append

theorem satisfies_if (frames : V → CGRect) (installed : Bool) (constraint : MASConstraint V) :
    SatisfiesAll frames (if installed then [constraint] else []) ↔
      (installed = true → Satisfies frames constraint) := by
  cases installed with
  | false => simp [SatisfiesAll]
  | true => simp [SatisfiesAll]

end Constraints

end CultivationMotain.Foundation

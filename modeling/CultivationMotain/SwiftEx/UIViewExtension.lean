import CultivationMotain.Foundation.Geometry
import Mathlib.Algebra.Order.Field.Rat
import Mathlib.Tactic.Linarith

set_option autoImplicit false

namespace CultivationMotain.SwiftEx

open Foundation

structure UIView where
  frame : CGRect
deriving DecidableEq, Repr

namespace UIView

variable (view : UIView)

def x : CGFloat := view.frame.x

def setX (newValue : CGFloat) : UIView := { view with frame := { view.frame with x := newValue } }

def y : CGFloat := view.frame.y

def setY (newValue : CGFloat) : UIView := { view with frame := { view.frame with y := newValue } }

def rightX : CGFloat := view.frame.x + view.frame.width

def setRightX (newValue : CGFloat) : UIView :=
  { view with frame := { view.frame with x := newValue - view.frame.width } }

def bottomY : CGFloat := view.frame.y + CGRectGetHeight view.frame

def setBottomY (newValue : CGFloat) : UIView :=
  { view with frame := { view.frame with y := newValue - CGRectGetWidth view.frame } }

def centerX : CGFloat := view.frame.x + CGRectGetWidth view.frame / 2

def setCenterX (newValue : CGFloat) : UIView :=
  { view with frame := { view.frame with x := newValue - CGRectGetWidth view.frame / 2 } }

def centerY : CGFloat := view.frame.x + CGRectGetHeight view.frame / 2

def setCenterY (newValue : CGFloat) : UIView :=
  { view with frame := { view.frame with y := newValue - CGRectGetHeight view.frame / 2 } }

def width : CGFloat := CGRectGetWidth view.frame

def setWidth (newValue : CGFloat) : UIView := { view with frame := { view.frame with width := newValue } }

def height : CGFloat := CGRectGetHeight view.frame

def setHeight (newValue : CGFloat) : UIView := { view with frame := { view.frame with height := newValue } }

def origin : CGPoint := ⟨view.frame.x, view.frame.y⟩

def setOrigin (newValue : CGPoint) : UIView :=
  { view with frame := { view.frame with x := newValue.x, y := newValue.y } }

def size : CGSize := ⟨view.frame.width, view.frame.height⟩

def setSize (newValue : CGSize) : UIView :=
  { view with frame := { view.frame with width := newValue.width, height := newValue.height } }

end UIView

inductive Accessor where
  | x
  | y
  | rightX
  | bottomY
  | centerX
  | centerY
  | width
  | height
  | origin
  | size
deriving DecidableEq, Repr

inductive Component where
  | x
  | y
  | width
  | height
deriving DecidableEq, Repr

def Component.of (frame : CGRect) : Component → CGFloat
  | .x => frame.x
  | .y => frame.y
  | .width => frame.width
  | .height => frame.height

namespace Accessor

abbrev Value : Accessor → Type
  | .origin => CGPoint
  | .size => CGSize
  | _ => CGFloat

def get (view : UIView) : (accessor : Accessor) → accessor.Value
  | .x => view.x
  | .y => view.y
  | .rightX => view.rightX
  | .bottomY => view.bottomY
  | .centerX => view.centerX
  | .centerY => view.centerY
  | .width => view.width
  | .height => view.height
  | .origin => view.origin
  | .size => view.size

def set (view : UIView) : (accessor : Accessor) → accessor.Value → UIView
  | .x => view.setX
  | .y => view.setY
  | .rightX => view.setRightX
  | .bottomY => view.setBottomY
  | .centerX => view.setCenterX
  | .centerY => view.setCenterY
  | .width => view.setWidth
  | .height => view.setHeight
  | .origin => view.setOrigin
  | .size => view.setSize

-- The components of the frame that an accessor is about.
def about : Accessor → List Component
  | .x | .rightX | .centerX => [.x]
  | .y | .bottomY | .centerY => [.y]
  | .width => [.width]
  | .height => [.height]
  | .origin => [.x, .y]
  | .size => [.width, .height]

-- The values of a size are not negative.
def Allowed : (accessor : Accessor) → accessor.Value → Prop
  | .width, value => 0 ≤ value
  | .height, value => 0 ≤ value
  | .size, value => 0 ≤ value.width ∧ 0 ≤ value.height
  | _, _ => True

structure Lens (view : UIView) (accessor : Accessor) (value : accessor.Value) : Prop where
  setGet : get (set view accessor value) accessor = value
  others : ∀ component ∉ accessor.about, component.of (set view accessor value).frame = component.of view.frame
  getSet : set view accessor (get view accessor) = view

-- The bottom edge is set by the width, and the vertical centre is got from x.
def Consistent (view : UIView) : (accessor : Accessor) → accessor.Value → Prop
  | .bottomY, _ => view.frame.width = view.frame.height
  | .centerY, value => view.frame.x = view.frame.y ∧ value = view.frame.y + view.frame.height / 2
  | _, _ => True

variable (view : UIView)

theorem get_width (rect : CGRect) (width : 0 ≤ rect.width) : CGRectGetWidth rect = rect.width := abs_of_nonneg width

theorem get_height (rect : CGRect) (height : 0 ≤ rect.height) : CGRectGetHeight rect = rect.height :=
  abs_of_nonneg height

theorem set_x_same_iff (newValue : CGFloat) : view.setX newValue = view ↔ newValue = view.frame.x := by
  obtain ⟨⟨x, y, width, height⟩⟩ := view
  simp [UIView.setX]

theorem set_y_same_iff (newValue : CGFloat) : view.setY newValue = view ↔ newValue = view.frame.y := by
  obtain ⟨⟨x, y, width, height⟩⟩ := view
  simp [UIView.setY]

theorem others_unchanged (accessor : Accessor) (value : accessor.Value) (component : Component)
    (other : component ∉ accessor.about) :
    component.of (set view accessor value).frame = component.of view.frame := by
  cases accessor <;> cases component <;> first | rfl | exact absurd (by decide) other

theorem lens_iff (accessor : Accessor) (value : accessor.Value) :
    Lens view accessor value ↔
      get (set view accessor value) accessor = value ∧ set view accessor (get view accessor) = view :=
  ⟨fun lens => ⟨lens.setGet, lens.getSet⟩, fun both => ⟨both.1, others_unchanged view accessor value, both.2⟩⟩

-- An edge that is got at one distance from the origin and set at another.
theorem edge_iff (origin value got back : CGFloat) :
    value - back + got = value ∧ origin + got - back = origin ↔ got = back := by
  constructor
  · intro both
    linarith [both.1]
  · intro same
    rw [same]
    exact ⟨sub_add_cancel value back, add_sub_cancel_right origin back⟩

theorem right_x_lens (value : CGFloat) : Lens view .rightX value := by
  have edge := (edge_iff view.frame.x value view.frame.width view.frame.width).mpr rfl
  exact (lens_iff view .rightX value).mpr ⟨edge.1, (set_x_same_iff view _).mpr edge.2⟩

theorem center_x_lens (value : CGFloat) : Lens view .centerX value := by
  have edge := (edge_iff view.frame.x value (CGRectGetWidth view.frame / 2) (CGRectGetWidth view.frame / 2)).mpr rfl
  exact (lens_iff view .centerX value).mpr ⟨edge.1, (set_x_same_iff view _).mpr edge.2⟩

theorem bottom_y_lens_iff (width : 0 ≤ view.frame.width) (height : 0 ≤ view.frame.height) (value : CGFloat) :
    Lens view .bottomY value ↔ view.frame.width = view.frame.height := by
  have got := get_height view.frame height
  have back := get_width view.frame width
  have setGet : get (set view .bottomY value) .bottomY = value - view.frame.width + view.frame.height :=
    congrArg₂ (fun back got => value - back + got) back got
  have getSet : set view .bottomY (get view .bottomY) =
      view.setY (view.frame.y + view.frame.height - view.frame.width) :=
    congrArg₂ (fun back got => view.setY (view.frame.y + got - back)) back got
  rw [lens_iff, setGet, getSet, set_y_same_iff, edge_iff, eq_comm]

-- What is got is x, with the half of the height, whatever y is set to.
theorem center_y_lens_iff (height : 0 ≤ view.frame.height) (value : CGFloat) :
    Lens view .centerY value ↔
      view.frame.x = view.frame.y ∧ value = view.frame.y + view.frame.height / 2 := by
  have half := congrArg (· / 2) (get_height view.frame height)
  have setGet : get (set view .centerY value) .centerY = view.frame.x + view.frame.height / 2 :=
    congrArg (view.frame.x + ·) half
  have getSet : set view .centerY (get view .centerY) = view.setY view.frame.x :=
    congrArg view.setY (add_sub_cancel_right view.frame.x _)
  rw [lens_iff, setGet, getSet, set_y_same_iff, and_comm]
  refine and_congr_right fun same => ?_
  rw [same, eq_comm]

theorem width_lens (width : 0 ≤ view.frame.width) (value : CGFloat) (allowed : 0 ≤ value) :
    Lens view .width value := by
  have same : view.setWidth (CGRectGetWidth view.frame) = view := by
    rw [get_width view.frame width]
    rfl
  exact (lens_iff view .width value).mpr ⟨get_width _ allowed, same⟩

theorem height_lens (height : 0 ≤ view.frame.height) (value : CGFloat) (allowed : 0 ≤ value) :
    Lens view .height value := by
  have same : view.setHeight (CGRectGetHeight view.frame) = view := by
    rw [get_height view.frame height]
    rfl
  exact (lens_iff view .height value).mpr ⟨get_height _ allowed, same⟩

theorem accessor_lens_iff (width : 0 ≤ view.frame.width) (height : 0 ≤ view.frame.height) (accessor : Accessor)
    (value : accessor.Value) (allowed : Allowed accessor value) :
    Lens view accessor value ↔ Consistent view accessor value := by
  cases accessor with
  | x => exact iff_of_true ((lens_iff view .x value).mpr ⟨rfl, rfl⟩) trivial
  | y => exact iff_of_true ((lens_iff view .y value).mpr ⟨rfl, rfl⟩) trivial
  | rightX => exact iff_of_true (right_x_lens view value) trivial
  | bottomY => exact bottom_y_lens_iff view width height value
  | centerX => exact iff_of_true (center_x_lens view value) trivial
  | centerY => exact center_y_lens_iff view height value
  | width => exact iff_of_true (width_lens view width value allowed) trivial
  | height => exact iff_of_true (height_lens view height value allowed) trivial
  | origin => exact iff_of_true ((lens_iff view .origin value).mpr ⟨rfl, rfl⟩) trivial
  | size => exact iff_of_true ((lens_iff view .size value).mpr ⟨rfl, rfl⟩) trivial

theorem square_bottom_lens : Lens ⟨⟨10, 20, 100, 100⟩⟩ .bottomY 300 :=
  (accessor_lens_iff ⟨⟨10, 20, 100, 100⟩⟩ (by decide) (by decide) .bottomY 300 trivial).mpr rfl

theorem wide_bottom_moves :
    ¬ ∀ (view : UIView) (accessor : Accessor) (value : accessor.Value), 0 ≤ view.frame.width → 0 ≤ view.frame.height →
      Allowed accessor value → Lens view accessor value := by
  intro all
  have lens := all ⟨⟨0, 0, 200, 100⟩⟩ .bottomY 300 (by decide) (by decide) trivial
  have same := (bottom_y_lens_iff _ (by decide) (by decide) _).mp lens
  exact absurd same (by decide)

end Accessor

end CultivationMotain.SwiftEx

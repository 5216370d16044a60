import Mathlib.Algebra.Order.Group.Unbundled.Abs
import Mathlib.Algebra.Order.Ring.Rat

set_option autoImplicit false

namespace CultivationMotain.Foundation

-- CGFloat is taken to be exact.
abbrev CGFloat := Rat

structure CGPoint where
  x : CGFloat
  y : CGFloat
deriving DecidableEq, Repr

structure CGSize where
  width : CGFloat
  height : CGFloat
deriving DecidableEq, Repr

-- A size may be negative: the rectangle then lies on the other side of its
-- origin.
structure CGRect where
  x : CGFloat
  y : CGFloat
  width : CGFloat
  height : CGFloat
deriving DecidableEq, Repr

def CGRectStandardize (rect : CGRect) : CGRect :=
  ⟨if rect.width < 0 then rect.x + rect.width else rect.x, if rect.height < 0 then rect.y + rect.height else rect.y,
    |rect.width|, |rect.height|⟩

def CGRectGetMinX (rect : CGRect) : CGFloat := (CGRectStandardize rect).x

def CGRectGetMinY (rect : CGRect) : CGFloat := (CGRectStandardize rect).y

def CGRectGetMaxX (rect : CGRect) : CGFloat := (CGRectStandardize rect).x + (CGRectStandardize rect).width

def CGRectGetMaxY (rect : CGRect) : CGFloat := (CGRectStandardize rect).y + (CGRectStandardize rect).height

def CGRectGetWidth (rect : CGRect) : CGFloat := (CGRectStandardize rect).width

def CGRectGetHeight (rect : CGRect) : CGFloat := (CGRectStandardize rect).height

-- None is the null rectangle.
def CGRectInset (rect : CGRect) (dx dy : CGFloat) : Option CGRect :=
  let standard := CGRectStandardize rect
  if standard.width < 2 * dx ∨ standard.height < 2 * dy then none
  else some ⟨standard.x + dx, standard.y + dy, standard.width - 2 * dx, standard.height - 2 * dy⟩

-- The null rectangle has no size.
def CGRect.insetBy (rect : CGRect) (dx dy : CGFloat) : CGRect := (CGRectInset rect dx dy).getD ⟨rect.x, rect.y, 0, 0⟩

def CGRect.offsetBy (rect : CGRect) (dx dy : CGFloat) : CGRect := ⟨rect.x + dx, rect.y + dy, rect.width, rect.height⟩

-- The intersection is not the null rectangle.
def CGRectIntersectsRect (first second : CGRect) : Bool :=
  CGRectGetMinX first ≤ CGRectGetMaxX second && CGRectGetMinX second ≤ CGRectGetMaxX first &&
    CGRectGetMinY first ≤ CGRectGetMaxY second && CGRectGetMinY second ≤ CGRectGetMaxY first

theorem rect_intersects_itself (rect : CGRect) : CGRectIntersectsRect rect rect = true := by
  have width : 0 ≤ (CGRectStandardize rect).width := abs_nonneg rect.width
  have height : 0 ≤ (CGRectStandardize rect).height := abs_nonneg rect.height
  simp [CGRectIntersectsRect, CGRectGetMinX, CGRectGetMaxX, CGRectGetMinY, CGRectGetMaxY, width, height]

theorem standardize_nonneg (rect : CGRect) (width : 0 ≤ rect.width) (height : 0 ≤ rect.height) :
    CGRectStandardize rect = rect := by
  rw [CGRectStandardize, if_neg (not_lt_of_ge width), if_neg (not_lt_of_ge height), abs_of_nonneg width,
    abs_of_nonneg height]

theorem max_y_of_height (rect : CGRect) (height : 0 ≤ rect.height) : CGRectGetMaxY rect = rect.y + rect.height := by
  simp only [CGRectGetMaxY, CGRectStandardize, if_neg (not_lt_of_ge height), abs_of_nonneg height]

theorem inset_by_nonneg (rect : CGRect) (dx dy : CGFloat) :
    0 ≤ (rect.insetBy dx dy).width ∧ 0 ≤ (rect.insetBy dx dy).height := by
  unfold CGRect.insetBy CGRectInset
  by_cases small : (CGRectStandardize rect).width < 2 * dx ∨ (CGRectStandardize rect).height < 2 * dy
  · rw [if_pos small]
    exact ⟨le_refl 0, le_refl 0⟩
  · rw [if_neg small]
    obtain ⟨width, height⟩ := not_or.mp small
    exact ⟨sub_nonneg.mpr (le_of_not_gt width), sub_nonneg.mpr (le_of_not_gt height)⟩

end CultivationMotain.Foundation

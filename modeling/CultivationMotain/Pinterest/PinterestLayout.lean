import CultivationMotain.Foundation.Geometry
import CultivationMotain.Library.Dealing
import Mathlib.Tactic.Linarith

set_option autoImplicit false

namespace CultivationMotain.Pinterest

open Foundation Dealing

structure PinterestLayoutDelegate where
  heightForPhotoAtIndexPath : Nat → CGFloat → CGFloat
  heightForAnnotationAtIndexPath : Nat → CGFloat → CGFloat
  photo_nonneg : ∀ item width, 0 ≤ heightForPhotoAtIndexPath item width
  annotation_nonneg : ∀ item width, 0 ≤ heightForAnnotationAtIndexPath item width

-- bounds and contentInset are what the layout reads of them.
structure UICollectionView where
  boundsWidth : CGFloat
  insetLeft : CGFloat
  insetRight : CGFloat
  numberOfItems : Nat

-- frame is none where it is the null rectangle.
structure PinterestLayoutAttributes where
  indexPath : Nat
  photoHeight : CGFloat
  frame : Option CGRect
deriving DecidableEq, Repr

structure PinterestLayout where
  numberOfColumns : Nat
  cellPadding : CGFloat
  cache : List PinterestLayoutAttributes
  contentHeight : CGFloat
deriving DecidableEq, Repr

def newLayout (numberOfColumns : Nat) (cellPadding : CGFloat) : PinterestLayout := ⟨numberOfColumns, cellPadding, [], 0⟩

def contenWidth (collectionView : UICollectionView) : CGFloat :=
  collectionView.boundsWidth - (collectionView.insetLeft + collectionView.insetRight)

def columnWidth (layout : PinterestLayout) (collectionView : UICollectionView) : CGFloat :=
  contenWidth collectionView / layout.numberOfColumns

section Preparing

variable (delegate : PinterestLayoutDelegate)

-- The variables of the loop over the items.
structure Placing where
  layout : PinterestLayout
  column : Nat
  yOffset : List CGFloat

-- None is the trap of a column that the arrays do not have.
def placeItem (columnWidth : CGFloat) (xOffsets : List CGFloat) (placing : Placing) (item : Nat) : Option Placing := do
  let cellPadding := placing.layout.cellPadding
  let width := columnWidth - 2 * cellPadding
  let photoHeight := delegate.heightForPhotoAtIndexPath item width
  let annotationHeight := delegate.heightForAnnotationAtIndexPath item width
  let height := photoHeight + annotationHeight + 2 * cellPadding
  let x ← xOffsets[placing.column]?
  let y ← placing.yOffset[placing.column]?
  let frame : CGRect := ⟨x, y, width, height⟩
  let insetFrame := CGRectInset frame cellPadding cellPadding
  some
    { layout := { placing.layout with
        cache := placing.layout.cache ++ [⟨item, photoHeight, insetFrame⟩]
        contentHeight := max placing.layout.contentHeight (CGRectGetMaxY frame) }
      column := if (placing.column : Int) ≥ placing.layout.numberOfColumns - 1 then 0 else placing.column + 1
      yOffset := placing.yOffset.set placing.column (y + height) }

def prepareLayout (layout : PinterestLayout) (collectionView : UICollectionView) : Option PinterestLayout :=
  if layout.cache.isEmpty then
    let width := columnWidth layout collectionView
    let xOffsets := (List.range layout.numberOfColumns).map fun column : Nat => (column : CGFloat) * width
    let yOffset := List.replicate layout.numberOfColumns 0
    ((List.range collectionView.numberOfItems).foldlM (placeItem delegate width xOffsets) ⟨layout, 0, yOffset⟩).map
      Placing.layout
  else some layout

end Preparing

def collectionViewContentSize (layout : PinterestLayout) (collectionView : UICollectionView) : CGSize :=
  ⟨contenWidth collectionView, layout.contentHeight⟩

def layoutAttributesForElementsInRect (layout : PinterestLayout) (rect : CGRect) : List PinterestLayoutAttributes :=
  layout.cache.filter fun shown => shown.frame.any (CGRectIntersectsRect rect)

section Frames

variable (layout : PinterestLayout) (collectionView : UICollectionView) (delegate : PinterestLayoutDelegate)

def measuringWidth : CGFloat := columnWidth layout collectionView - 2 * layout.cellPadding

def photoHeight (item : Nat) : CGFloat :=
  delegate.heightForPhotoAtIndexPath item (measuringWidth layout collectionView)

def annotationHeight (item : Nat) : CGFloat :=
  delegate.heightForAnnotationAtIndexPath item (measuringWidth layout collectionView)

def itemHeight (item : Nat) : CGFloat :=
  photoHeight layout collectionView delegate item + annotationHeight layout collectionView delegate item +
    2 * layout.cellPadding

def columnTotal (column count : Nat) : CGFloat :=
  total (itemHeight layout collectionView delegate) layout.numberOfColumns column count

-- The room of an item in its column, padding included.
def itemRoom (item : Nat) : CGRect where
  x := ((item % layout.numberOfColumns : Nat) : CGFloat) * columnWidth layout collectionView
  y := columnTotal layout collectionView delegate (item % layout.numberOfColumns) item
  width := measuringWidth layout collectionView
  height := itemHeight layout collectionView delegate item

def itemAttributes (item : Nat) : PinterestLayoutAttributes where
  indexPath := item
  photoHeight := photoHeight layout collectionView delegate item
  frame := CGRectInset (itemRoom layout collectionView delegate item) layout.cellPadding layout.cellPadding

-- What the loop holds after the first items.
structure Placed (count : Nat) (placing : Placing) : Prop where
  columns : placing.layout.numberOfColumns = layout.numberOfColumns
  padding : placing.layout.cellPadding = layout.cellPadding
  cache : placing.layout.cache = (List.range count).map (itemAttributes layout collectionView delegate)
  tallest :
    Tallest (itemHeight layout collectionView delegate) layout.numberOfColumns count placing.layout.contentHeight
  column : placing.column = count % layout.numberOfColumns
  yOffset : placing.yOffset =
    (List.range layout.numberOfColumns).map fun column => columnTotal layout collectionView delegate column count

theorem item_height_nonneg (padding : 0 ≤ layout.cellPadding) (item : Nat) :
    0 ≤ itemHeight layout collectionView delegate item := by
  have photo := delegate.photo_nonneg item (measuringWidth layout collectionView)
  have annotation := delegate.annotation_nonneg item (measuringWidth layout collectionView)
  unfold itemHeight photoHeight annotationHeight
  linarith

theorem next_column (count columns : Nat) (positive : 0 < columns) :
    (if ((count % columns : Nat) : Int) ≥ columns - 1 then 0 else count % columns + 1) = (count + 1) % columns := by
  have inside := Nat.mod_lt count positive
  rw [← Nat.mod_add_mod count columns 1]
  by_cases last : ((count % columns : Nat) : Int) ≥ columns - 1
  · have full : count % columns + 1 = columns := by omega
    rw [if_pos last, full, Nat.mod_self]
  · have room : count % columns + 1 < columns := by omega
    rw [if_neg last, Nat.mod_eq_of_lt room]

theorem column_offsets (heights : Nat → CGFloat) (columns count : Nat) :
    ((List.range columns).map fun column => total heights columns column count).set (count % columns)
        (total heights columns (count % columns) count + heights count) =
      (List.range columns).map fun column => total heights columns column (count + 1) := by
  rw [← total_dealt]
  refine List.ext_getElem (by simp) fun column _ inside => ?_
  rw [List.getElem_set, List.getElem_map, List.getElem_map, List.getElem_range]
  by_cases dealt : count % columns = column
  · rw [if_pos dealt, dealt]
  · rw [if_neg dealt, total_other heights columns column count dealt]

theorem place_item_placed (count : Nat) (placing : Placing) (positive : 0 < layout.numberOfColumns)
    (padding : 0 ≤ layout.cellPadding) (placed : Placed layout collectionView delegate count placing) :
    ∃ next,
      placeItem delegate (columnWidth layout collectionView)
          ((List.range layout.numberOfColumns).map fun column : Nat =>
            (column : CGFloat) * columnWidth layout collectionView) placing count = some next ∧
        Placed layout collectionView delegate (count + 1) next := by
  have nonneg := item_height_nonneg layout collectionView delegate padding
  have inside := Nat.mod_lt count positive
  have x : ((List.range layout.numberOfColumns).map fun column : Nat =>
      (column : CGFloat) * columnWidth layout collectionView)[placing.column]? =
        some (itemRoom layout collectionView delegate count).x := by
    rw [placed.column, List.getElem?_map, List.getElem?_range inside]
    rfl
  have y : placing.yOffset[placing.column]? = some (itemRoom layout collectionView delegate count).y := by
    rw [placed.yOffset, placed.column, List.getElem?_map, List.getElem?_range inside]
    rfl
  have bottom : CGRectGetMaxY (itemRoom layout collectionView delegate count) =
      columnTotal layout collectionView delegate (count % layout.numberOfColumns) count +
        itemHeight layout collectionView delegate count :=
    max_y_of_height _ (nonneg count)
  have tallest := tallest_succ _ _ nonneg count _ positive placed.tallest
  unfold placeItem
  simp only [x, y, placed.padding, placed.columns]
  refine ⟨_, rfl, rfl, rfl, ?_, ?_, ?_, ?_⟩
  · rw [placed.cache, List.range_succ, List.map_append]
    rfl
  · exact bottom ▸ tallest
  · rw [placed.column]
    exact next_column count layout.numberOfColumns positive
  · rw [placed.yOffset, placed.column]
    exact column_offsets (itemHeight layout collectionView delegate) layout.numberOfColumns count

theorem placing_placed (count : Nat) (start : Placing) (positive : 0 < layout.numberOfColumns)
    (padding : 0 ≤ layout.cellPadding) (placed : Placed layout collectionView delegate 0 start) :
    ∃ last,
      (List.range count).foldlM (placeItem delegate (columnWidth layout collectionView)
          ((List.range layout.numberOfColumns).map fun column : Nat =>
            (column : CGFloat) * columnWidth layout collectionView)) start = some last ∧
        Placed layout collectionView delegate count last := by
  induction count with
  | zero => exact ⟨start, rfl, placed⟩
  | succ count ih =>
      obtain ⟨placing, reached, before⟩ := ih
      obtain ⟨next, taken, after⟩ :=
        place_item_placed layout collectionView delegate count placing positive padding before
      refine ⟨next, ?_, after⟩
      rw [List.range_succ, List.foldlM_append, reached]
      simpa using taken

theorem first_pass (positive : 0 < layout.numberOfColumns) (padding : 0 ≤ layout.cellPadding)
    (empty : layout.cache = []) (flat : layout.contentHeight = 0) :
    ∃ after, prepareLayout delegate layout collectionView = some after ∧
      after.numberOfColumns = layout.numberOfColumns ∧ after.cellPadding = layout.cellPadding ∧
      after.cache =
        (List.range collectionView.numberOfItems).map (itemAttributes layout collectionView delegate) ∧
      Tallest (itemHeight layout collectionView delegate) layout.numberOfColumns collectionView.numberOfItems
        after.contentHeight := by
  have start : Placed layout collectionView delegate 0 ⟨layout, 0, List.replicate layout.numberOfColumns 0⟩ := by
    refine ⟨rfl, rfl, empty, ?_, (Nat.zero_mod _).symm, ?_⟩
    · rw [flat]
      exact tallest_zero _ _ positive
    · have zeros : (List.range layout.numberOfColumns).map (fun _ => (0 : CGFloat)) =
          List.replicate layout.numberOfColumns 0 := by rw [List.map_const', List.length_range]
      exact zeros.symm
  obtain ⟨last, reached, placed⟩ :=
    placing_placed layout collectionView delegate collectionView.numberOfItems _ positive padding start
  refine ⟨last.layout, ?_, placed.columns, placed.padding, placed.cache, placed.tallest⟩
  rw [prepareLayout, empty, List.isEmpty_nil, if_pos rfl]
  dsimp only
  rw [reached, Option.map_some]

end Frames

def squarePhotos : PinterestLayoutDelegate where
  heightForPhotoAtIndexPath _ width := |width|
  heightForAnnotationAtIndexPath _ _ := 21
  photo_nonneg _ width := abs_nonneg width
  annotation_nonneg _ _ := by norm_num

end CultivationMotain.Pinterest

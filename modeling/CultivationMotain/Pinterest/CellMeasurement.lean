import CultivationMotain.Pinterest.LayoutGeometry
import Mathlib.Data.Rat.Floor

set_option autoImplicit false

namespace CultivationMotain.Pinterest

open Foundation

structure Photo where
  comment : String
  imageSize : CGSize
deriving DecidableEq, Repr

-- boundingRectWithSize of a text in the font of the comments.
structure TextKit where
  boundingRect : String → CGSize → CGRect

def MAXFLOAT : CGFloat := (2 ^ 24 - 1) * 2 ^ 104

def AVMakeRectWithAspectRatioInsideRect (aspectRatio : CGSize) (boundingRect : CGRect) : CGRect :=
  let scale := min (boundingRect.width / aspectRatio.width) (boundingRect.height / aspectRatio.height)
  let width := aspectRatio.width * scale
  let height := aspectRatio.height * scale
  ⟨boundingRect.x + (boundingRect.width - width) / 2, boundingRect.y + (boundingRect.height - height) / 2, width,
    height⟩

variable (textKit : TextKit)

def heightForComment (photo : Photo) (width : CGFloat) : CGFloat :=
  ⌈CGRectGetHeight (textKit.boundingRect photo.comment ⟨width, MAXFLOAT⟩)⌉

def heightForPhoto (photo : Photo) (width : CGFloat) : CGFloat :=
  CGRectGetHeight (AVMakeRectWithAspectRatioInsideRect photo.imageSize ⟨0, 0, width, MAXFLOAT⟩)

def heightForAnnotation (photo : Photo) (width : CGFloat) : CGFloat :=
  let annotationPadding : CGFloat := 2
  let annotationHeaderHeight : CGFloat := 17
  annotationPadding + annotationHeaderHeight + heightForComment textKit photo width + annotationPadding

theorem photo_height_nonneg (photo : Photo) (width : CGFloat) : 0 ≤ heightForPhoto photo width := abs_nonneg _

theorem annotation_height_nonneg (photo : Photo) (width : CGFloat) : 0 ≤ heightForAnnotation textKit photo width := by
  have comment : (0 : CGFloat) ≤ heightForComment textKit photo width :=
    Int.cast_nonneg (Int.ceil_nonneg (abs_nonneg _))
  unfold heightForAnnotation
  linarith

-- The layout asks for the photos that there are; the others would be the trap of
-- the index.
def photoStream (photos : List Photo) : PinterestLayoutDelegate where
  heightForPhotoAtIndexPath item width := (photos[item]?.map (heightForPhoto · width)).getD 0
  heightForAnnotationAtIndexPath item width :=
    (photos[item]?.map fun photo => heightForAnnotation textKit photo width).getD 0
  photo_nonneg item width := by
    cases photos[item]? with
    | none => exact le_refl _
    | some photo => exact photo_height_nonneg photo width
  annotation_nonneg item width := by
    cases photos[item]? with
    | none => exact le_refl _
    | some photo => exact annotation_height_nonneg textKit photo width

variable (layout : PinterestLayout) (collectionView : UICollectionView)

-- A cell has the width that its item was measured for, and the height of its
-- photo and its annotation for that width.
def CellMeasured (delegate : PinterestLayoutDelegate) (cell : PinterestLayoutAttributes) : Prop :=
  ∃ frame, cell.frame = some frame ∧ frame.width = measuringWidth layout collectionView ∧
    frame.height = delegate.heightForPhotoAtIndexPath cell.indexPath frame.width +
      delegate.heightForAnnotationAtIndexPath cell.indexPath frame.width

-- The cell is inset once more than the measuring width.
theorem cell_narrower (delegate : PinterestLayoutDelegate) (item : Nat) :
    (itemFrame layout collectionView delegate item).width =
        measuringWidth layout collectionView - 2 * layout.cellPadding ∧
      (itemFrame layout collectionView delegate item).height =
        delegate.heightForPhotoAtIndexPath item (measuringWidth layout collectionView) +
          delegate.heightForAnnotationAtIndexPath item (measuringWidth layout collectionView) := by
  refine ⟨?_, rfl⟩
  unfold itemFrame measuringWidth
  dsimp only
  linarith

theorem cells_never_measured (photos : List Photo) (numberOfColumns : Nat) (cellPadding : CGFloat)
    (everyPhoto : collectionView.numberOfItems = photos.length) (positive : 1 ≤ numberOfColumns)
    (padding : 0 < cellPadding) (wide : 4 * cellPadding < contenWidth collectionView / numberOfColumns) :
    ∃ after, prepareLayout (photoStream textKit photos) (newLayout numberOfColumns cellPadding) collectionView =
        some after ∧ after.cache.length = photos.length ∧
      ∀ cell ∈ after.cache,
        ¬ CellMeasured (newLayout numberOfColumns cellPadding) collectionView (photoStream textKit photos) cell := by
  obtain ⟨after, prepared, _, _, cache, _⟩ := first_pass (newLayout numberOfColumns cellPadding) collectionView
    (photoStream textKit photos) positive padding.le rfl rfl
  refine ⟨after, prepared, ?_, ?_⟩
  · rw [cache, List.length_map, List.length_range, everyPhoto]
  · rw [cache]
    rintro cell member ⟨frame, framed, width, _⟩
    obtain ⟨item, _, rfl⟩ := List.mem_map.mp member
    rw [item_framed (newLayout numberOfColumns cellPadding) collectionView (photoStream textKit photos) padding.le
      wide.le item] at framed
    obtain rfl := Option.some.inj framed
    have narrower := (cell_narrower (newLayout numberOfColumns cellPadding) collectionView (photoStream textKit photos)
      item).1
    have inset : (newLayout numberOfColumns cellPadding).cellPadding = cellPadding := rfl
    rw [width, inset] at narrower
    linarith

-- Letters of width 6 in lines of height 13.
def plainText : TextKit where
  boundingRect comment size := ⟨0, 0, size.width, 13 * ⌈6 * (comment.length : CGFloat) / size.width⌉⟩

def onTheBeach : Photo := ⟨"On the beach!!", ⟨400, 300⟩⟩

theorem cells_never_measured_beach :
    ∃ after, prepareLayout (photoStream plainText [onTheBeach]) (newLayout 2 6) ⟨210, 5, 5, 1⟩ = some after ∧
      after.cache.length = 1 ∧
      ∀ cell ∈ after.cache, ¬ CellMeasured (newLayout 2 6) ⟨210, 5, 5, 1⟩ (photoStream plainText [onTheBeach]) cell :=
  cells_never_measured plainText ⟨210, 5, 5, 1⟩ [onTheBeach] 2 6 rfl (by decide) (by decide) (by decide +kernel)

-- The comment is measured as one line and takes two in the cell.
theorem comment_cut :
    ¬ ∀ after, prepareLayout (photoStream plainText [onTheBeach]) (newLayout 2 6) ⟨210, 5, 5, 1⟩ = some after →
      ∀ cell ∈ after.cache, CellMeasured (newLayout 2 6) ⟨210, 5, 5, 1⟩ (photoStream plainText [onTheBeach]) cell := by
  intro all
  obtain ⟨frame, framed, width, _⟩ := all _ rfl _ List.mem_cons_self
  have shown := item_framed (newLayout 2 6) ⟨210, 5, 5, 1⟩ (photoStream plainText [onTheBeach]) (by decide)
    (by decide +kernel) 0
  obtain rfl := Option.some.inj (shown.symm.trans framed)
  exact absurd width (by decide +kernel)

end CultivationMotain.Pinterest

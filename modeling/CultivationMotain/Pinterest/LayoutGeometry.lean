import CultivationMotain.Pinterest.PinterestLayout

set_option autoImplicit false

namespace CultivationMotain.Pinterest

open Foundation Dealing

def StrictlyInside (rect : CGRect) (x y : CGFloat) : Prop :=
  rect.x < x ∧ x < rect.x + rect.width ∧ rect.y < y ∧ y < rect.y + rect.height

def Overlap (first second : CGRect) : Prop := ∃ x y, StrictlyInside first x y ∧ StrictlyInside second x y

variable (layout : PinterestLayout) (collectionView : UICollectionView) (delegate : PinterestLayoutDelegate)

def framesOf (after : PinterestLayout) : List CGRect := after.cache.filterMap PinterestLayoutAttributes.frame

structure WellPlaced (after : PinterestLayout) : Prop where
  numbered : after.cache.map PinterestLayoutAttributes.indexPath = List.range collectionView.numberOfItems
  framed : (framesOf after).length = collectionView.numberOfItems
  column : ∀ (item : Nat) frame, (framesOf after)[item]? = some frame →
    ((item % layout.numberOfColumns : Nat) : CGFloat) * columnWidth layout collectionView ≤ frame.x ∧
      frame.x + frame.width ≤
        ((item % layout.numberOfColumns + 1 : Nat) : CGFloat) * columnWidth layout collectionView
  separate : (framesOf after).Pairwise fun first second => ¬ Overlap first second
  inside : ∀ frame ∈ framesOf after, 0 ≤ frame.x ∧
    frame.x + frame.width ≤ (collectionViewContentSize after collectionView).width ∧ 0 ≤ frame.y ∧
    frame.y + frame.height ≤ (collectionViewContentSize after collectionView).height
  follow : ∀ (first second : Nat) upper lower, first < second →
    first % layout.numberOfColumns = second % layout.numberOfColumns → (framesOf after)[first]? = some upper →
    (framesOf after)[second]? = some lower → upper.y + upper.height ≤ lower.y
  tallest : Tallest (itemHeight layout collectionView delegate) layout.numberOfColumns collectionView.numberOfItems
    (collectionViewContentSize after collectionView).height
  flat : collectionView.numberOfItems = 0 → (collectionViewContentSize after collectionView).height = 0

def itemFrame (item : Nat) : CGRect where
  x := ((item % layout.numberOfColumns : Nat) : CGFloat) * columnWidth layout collectionView + layout.cellPadding
  y := columnTotal layout collectionView delegate (item % layout.numberOfColumns) item + layout.cellPadding
  width := columnWidth layout collectionView - 4 * layout.cellPadding
  height := photoHeight layout collectionView delegate item + annotationHeight layout collectionView delegate item

section Frames

variable (padding : 0 ≤ layout.cellPadding)
include padding

theorem column_holds (item : Nat) :
    ((item % layout.numberOfColumns : Nat) : CGFloat) * columnWidth layout collectionView ≤
        (itemFrame layout collectionView delegate item).x ∧
      (itemFrame layout collectionView delegate item).x + (itemFrame layout collectionView delegate item).width ≤
        ((item % layout.numberOfColumns + 1 : Nat) : CGFloat) * columnWidth layout collectionView := by
  rw [Nat.cast_succ, add_mul, one_mul]
  unfold itemFrame
  dsimp only
  constructor <;> linarith

theorem total_holds (item : Nat) :
    columnTotal layout collectionView delegate (item % layout.numberOfColumns) item ≤
        (itemFrame layout collectionView delegate item).y ∧
      (itemFrame layout collectionView delegate item).y + (itemFrame layout collectionView delegate item).height ≤
        columnTotal layout collectionView delegate (item % layout.numberOfColumns) item +
          itemHeight layout collectionView delegate item := by
  unfold itemFrame itemHeight
  dsimp only
  constructor <;> linarith

theorem frames_follow (first second : Nat) (before : first < second)
    (same : first % layout.numberOfColumns = second % layout.numberOfColumns) :
    (itemFrame layout collectionView delegate first).y + (itemFrame layout collectionView delegate first).height ≤
      (itemFrame layout collectionView delegate second).y := by
  have nonneg := item_height_nonneg layout collectionView delegate padding
  have ordered := total_before (itemHeight layout collectionView delegate) layout.numberOfColumns nonneg first second
    before
  rw [same] at ordered
  have upper := (total_holds layout collectionView delegate padding first).2
  have lower := (total_holds layout collectionView delegate padding second).1
  rw [same] at upper
  exact upper.trans (ordered.trans lower)

variable (wide : 4 * layout.cellPadding ≤ columnWidth layout collectionView)
include wide

theorem room_standard (item : Nat) :
    CGRectStandardize (itemRoom layout collectionView delegate item) =
      itemRoom layout collectionView delegate item := by
  have width : 0 ≤ (itemRoom layout collectionView delegate item).width := by
    unfold itemRoom measuringWidth
    dsimp only
    linarith
  have height : 0 ≤ (itemRoom layout collectionView delegate item).height :=
    item_height_nonneg layout collectionView delegate padding item
  rw [CGRectStandardize, if_neg (not_lt_of_ge width), if_neg (not_lt_of_ge height), abs_of_nonneg width,
    abs_of_nonneg height]

theorem item_framed (item : Nat) :
    (itemAttributes layout collectionView delegate item).frame =
      some (itemFrame layout collectionView delegate item) := by
  have photo := delegate.photo_nonneg item (measuringWidth layout collectionView)
  have annotation := delegate.annotation_nonneg item (measuringWidth layout collectionView)
  have room : ¬ ((itemRoom layout collectionView delegate item).width < 2 * layout.cellPadding ∨
      (itemRoom layout collectionView delegate item).height < 2 * layout.cellPadding) := by
    unfold itemRoom itemHeight photoHeight annotationHeight
    rw [not_or, not_lt, not_lt]
    exact ⟨by unfold measuringWidth; linarith, by linarith⟩
  have width : measuringWidth layout collectionView - 2 * layout.cellPadding =
      columnWidth layout collectionView - 4 * layout.cellPadding := by
    unfold measuringWidth
    linarith
  have height : itemHeight layout collectionView delegate item - 2 * layout.cellPadding =
      photoHeight layout collectionView delegate item + annotationHeight layout collectionView delegate item := by
    unfold itemHeight
    linarith
  rw [itemAttributes, CGRectInset, room_standard layout collectionView delegate padding wide item]
  dsimp only
  rw [if_neg room, itemFrame, ← width, ← height]
  rfl

theorem frames_of_pass (after : PinterestLayout)
    (cache : after.cache =
      (List.range collectionView.numberOfItems).map (itemAttributes layout collectionView delegate)) :
    framesOf after = (List.range collectionView.numberOfItems).map (itemFrame layout collectionView delegate) := by
  unfold framesOf
  rw [cache, List.filterMap_map]
  have framed : PinterestLayoutAttributes.frame ∘ itemAttributes layout collectionView delegate =
      fun item => some (itemFrame layout collectionView delegate item) :=
    funext fun item => item_framed layout collectionView delegate padding wide item
  rw [framed, List.filterMap_eq_map']

theorem columns_apart (first second : Nat)
    (before : first % layout.numberOfColumns < second % layout.numberOfColumns) :
    (itemFrame layout collectionView delegate first).x + (itemFrame layout collectionView delegate first).width ≤
      (itemFrame layout collectionView delegate second).x := by
  have room : 0 ≤ columnWidth layout collectionView := by linarith
  have upper := (column_holds layout collectionView delegate padding first).2
  have lower := (column_holds layout collectionView delegate padding second).1
  have columns : ((first % layout.numberOfColumns + 1 : Nat) : CGFloat) ≤
      ((second % layout.numberOfColumns : Nat) : CGFloat) := Nat.cast_le.mpr before
  exact upper.trans ((mul_le_mul_of_nonneg_right columns room).trans lower)

theorem frames_separate (first second : Nat) (before : first < second) :
    ¬ Overlap (itemFrame layout collectionView delegate first) (itemFrame layout collectionView delegate second) := by
  rintro ⟨x, y, ⟨left, right, top, bottom⟩, left', right', top', bottom'⟩
  rcases Nat.lt_trichotomy (first % layout.numberOfColumns) (second % layout.numberOfColumns) with less | same | more
  · have apart := columns_apart layout collectionView delegate padding wide first second less
    linarith
  · have apart := frames_follow layout collectionView delegate padding first second before same
    linarith
  · have apart := columns_apart layout collectionView delegate padding wide second first more
    linarith

theorem content_holds (positive : 0 < layout.numberOfColumns) (after : PinterestLayout)
    (tallest : Tallest (itemHeight layout collectionView delegate) layout.numberOfColumns collectionView.numberOfItems
      after.contentHeight) (item : Nat) (inside : item < collectionView.numberOfItems) :
    0 ≤ (itemFrame layout collectionView delegate item).x ∧
      (itemFrame layout collectionView delegate item).x + (itemFrame layout collectionView delegate item).width ≤
        (collectionViewContentSize after collectionView).width ∧
      0 ≤ (itemFrame layout collectionView delegate item).y ∧
      (itemFrame layout collectionView delegate item).y + (itemFrame layout collectionView delegate item).height ≤
        (collectionViewContentSize after collectionView).height := by
  have nonneg := item_height_nonneg layout collectionView delegate padding
  have room : 0 ≤ columnWidth layout collectionView := by linarith
  have below := Nat.mod_lt item positive
  obtain ⟨left, right⟩ := column_holds layout collectionView delegate padding item
  obtain ⟨top, bottom⟩ := total_holds layout collectionView delegate padding item
  have whole : (layout.numberOfColumns : CGFloat) * columnWidth layout collectionView = contenWidth collectionView :=
    mul_div_cancel₀ _ (Nat.cast_ne_zero.mpr positive.ne')
  have columns : ((item % layout.numberOfColumns + 1 : Nat) : CGFloat) ≤ (layout.numberOfColumns : CGFloat) :=
    Nat.cast_le.mpr below
  have grown := total_before (itemHeight layout collectionView delegate) layout.numberOfColumns nonneg item
    collectionView.numberOfItems inside
  refine ⟨?_, ?_, ?_, ?_⟩
  · exact (mul_nonneg (Nat.cast_nonneg _) room).trans left
  · exact right.trans ((mul_le_mul_of_nonneg_right columns room).trans whole.le)
  · exact (total_nonneg _ _ _ nonneg item).trans top
  · exact bottom.trans (grown.trans (tallest.bound _ below))

end Frames

theorem first_pass_placed (positive : 0 < layout.numberOfColumns) (padding : 0 ≤ layout.cellPadding)
    (wide : 4 * layout.cellPadding ≤ columnWidth layout collectionView) (after : PinterestLayout)
    (cache : after.cache =
      (List.range collectionView.numberOfItems).map (itemAttributes layout collectionView delegate))
    (tallest : Tallest (itemHeight layout collectionView delegate) layout.numberOfColumns collectionView.numberOfItems
      after.contentHeight) : WellPlaced layout collectionView delegate after := by
  have frames := frames_of_pass layout collectionView delegate padding wide after cache
  have framed (item : Nat) (frame : CGRect) (found : (framesOf after)[item]? = some frame) :
      itemFrame layout collectionView delegate item = frame := by
    rw [frames, List.getElem?_map] at found
    obtain ⟨index, present, rfl⟩ := Option.map_eq_some_iff.mp found
    obtain ⟨_, same⟩ := List.getElem?_eq_some_iff.mp present
    rw [List.getElem_range] at same
    rw [same]
  refine ⟨?_, ?_, ?_, ?_, ?_, ?_, tallest, ?_⟩
  · rw [cache, List.map_map]
    exact List.map_id _
  · rw [frames, List.length_map, List.length_range]
  · intro item frame found
    exact framed item frame found ▸ column_holds layout collectionView delegate padding item
  · rw [frames, List.pairwise_map]
    exact List.pairwise_lt_range.imp fun before =>
      frames_separate layout collectionView delegate padding wide _ _ before
  · rw [frames]
    intro frame member
    obtain ⟨item, inside, rfl⟩ := List.mem_map.mp member
    exact content_holds layout collectionView delegate padding wide positive after tallest item
      (List.mem_range.mp inside)
  · intro first second upper lower before same found found'
    rw [← framed first upper found, ← framed second lower found']
    exact frames_follow layout collectionView delegate padding first second before same
  · intro none_left
    rw [none_left] at tallest
    exact tallest_unique _ _ 0 _ _ tallest (tallest_zero _ _ positive)

theorem first_layout_placed (numberOfColumns : Nat) (cellPadding : CGFloat) (positive : 1 ≤ numberOfColumns)
    (padding : 0 ≤ cellPadding) (wide : 4 * cellPadding ≤ contenWidth collectionView / numberOfColumns) :
    ∃ after, prepareLayout delegate (newLayout numberOfColumns cellPadding) collectionView = some after ∧
      WellPlaced (newLayout numberOfColumns cellPadding) collectionView delegate after := by
  obtain ⟨after, prepared, _, _, cache, tallest⟩ :=
    first_pass (newLayout numberOfColumns cellPadding) collectionView delegate positive padding rfl rfl
  exact ⟨after, prepared, first_pass_placed (newLayout numberOfColumns cellPadding) collectionView delegate positive
    padding wide after cache tallest⟩

theorem three_photos_placed :
    ∃ after, prepareLayout squarePhotos (newLayout 2 6) ⟨210, 5, 5, 3⟩ = some after ∧
      WellPlaced (newLayout 2 6) ⟨210, 5, 5, 3⟩ squarePhotos after :=
  first_layout_placed ⟨210, 5, 5, 3⟩ squarePhotos 2 6 (by decide) (by decide) (by decide +kernel)

end CultivationMotain.Pinterest

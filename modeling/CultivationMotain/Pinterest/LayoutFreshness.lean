import CultivationMotain.Library.Runs
import CultivationMotain.Pinterest.PinterestLayout

set_option autoImplicit false

namespace CultivationMotain.Pinterest

open Foundation Dealing Runs

structure Content where
  collectionView : UICollectionView
  delegate : PinterestLayoutDelegate

-- filled is a ghost, the content at the pass that filled the cache.
structure Screen where
  layout : PinterestLayout
  content : Content
  filled : Option Content

inductive Event where
  | resize (boundsWidth : CGFloat)
  | setItems (numberOfItems : Nat) (delegate : PinterestLayoutDelegate)
  | pass

def layoutPass (screen : Screen) : Option Screen :=
  (prepareLayout screen.content.delegate screen.layout screen.content.collectionView).map fun layout =>
    { screen with
      layout := layout
      filled := if screen.layout.cache.isEmpty && !layout.cache.isEmpty then some screen.content else screen.filled }

def screenStep (screen : Screen) : Event → Option Screen
  | .resize boundsWidth =>
      some { screen with content.collectionView := { screen.content.collectionView with boundsWidth := boundsWidth } }
  | .setItems numberOfItems delegate =>
      some { screen with content :=
        ⟨{ screen.content.collectionView with numberOfItems := numberOfItems }, delegate⟩ }
  | .pass => layoutPass screen

variable (numberOfColumns : Nat) (cellPadding : CGFloat)

def firstScreen (content : Content) : Screen := ⟨newLayout numberOfColumns cellPadding, content, none⟩

-- A new layout gives the same attributes in every rectangle, and the same size.
def FreshlyLaidOut (screen : Screen) : Prop :=
  ∃ fresh, prepareLayout screen.content.delegate (newLayout numberOfColumns cellPadding)
      screen.content.collectionView = some fresh ∧
    (∀ rect, layoutAttributesForElementsInRect screen.layout rect = layoutAttributesForElementsInRect fresh rect) ∧
    collectionViewContentSize screen.layout screen.content.collectionView =
      collectionViewContentSize fresh screen.content.collectionView

def FreshAfter (_ : Screen) (event : Event) (after : Screen) : Prop :=
  event = .pass → FreshlyLaidOut numberOfColumns cellPadding after

section Contents

def Content.width (content : Content) : CGFloat :=
  columnWidth (newLayout numberOfColumns cellPadding) content.collectionView

def Content.photo (content : Content) (item : Nat) : CGFloat :=
  photoHeight (newLayout numberOfColumns cellPadding) content.collectionView content.delegate item

def Content.annotation (content : Content) (item : Nat) : CGFloat :=
  annotationHeight (newLayout numberOfColumns cellPadding) content.collectionView content.delegate item

def Content.tallest (content : Content) (height : CGFloat) : Prop :=
  Tallest (itemHeight (newLayout numberOfColumns cellPadding) content.collectionView content.delegate) numberOfColumns
    content.collectionView.numberOfItems height

def Content.attributes (content : Content) (item : Nat) : PinterestLayoutAttributes :=
  itemAttributes (newLayout numberOfColumns cellPadding) content.collectionView content.delegate item

structure SameMeasures (one other : Content) : Prop where
  items : one.collectionView.numberOfItems = other.collectionView.numberOfItems
  width : one.width numberOfColumns cellPadding = other.width numberOfColumns cellPadding
  photo : ∀ item, item < one.collectionView.numberOfItems →
    one.photo numberOfColumns cellPadding item = other.photo numberOfColumns cellPadding item
  annotation : ∀ item, item < one.collectionView.numberOfItems →
    one.annotation numberOfColumns cellPadding item = other.annotation numberOfColumns cellPadding item

def ShowsNothing (content : Content) : Prop :=
  content.collectionView.numberOfItems = 0 ∨
    (0 < content.width numberOfColumns cellPadding ∧ content.width numberOfColumns cellPadding < 4 * cellPadding)

def SameLayout (one other : Content) : Prop :=
  SameMeasures numberOfColumns cellPadding one other ∨
    (ShowsNothing numberOfColumns cellPadding one ∧ ShowsNothing numberOfColumns cellPadding other ∧
      ∀ height, one.tallest numberOfColumns cellPadding height ↔ other.tallest numberOfColumns cellPadding height)

end Contents

-- At a pass the content is laid out as the one that filled the cache.
def Unchanged (before : Screen) (event : Event) (_ : Screen) : Prop :=
  event = .pass → ∀ filled, before.filled = some filled → SameLayout numberOfColumns cellPadding filled before.content

structure FilledFrom (layout : PinterestLayout) (content : Content) : Prop where
  columns : layout.numberOfColumns = numberOfColumns
  padding : layout.cellPadding = cellPadding
  cache : layout.cache =
    (List.range content.collectionView.numberOfItems).map (content.attributes numberOfColumns cellPadding)
  tallest : content.tallest numberOfColumns cellPadding layout.contentHeight

def Tracked (screen : Screen) : Prop :=
  match screen.filled with
  | none => screen.layout = newLayout numberOfColumns cellPadding
  | some filled => FilledFrom numberOfColumns cellPadding screen.layout filled ∧ screen.layout.cache ≠ []

theorem fresh_filled (positive : 0 < numberOfColumns) (padding : 0 ≤ cellPadding) (content : Content) :
    ∃ fresh, prepareLayout content.delegate (newLayout numberOfColumns cellPadding) content.collectionView =
        some fresh ∧ FilledFrom numberOfColumns cellPadding fresh content := by
  obtain ⟨fresh, prepared, columns, same, cache, tallest⟩ :=
    first_pass (newLayout numberOfColumns cellPadding) content.collectionView content.delegate positive padding rfl rfl
  exact ⟨fresh, prepared, columns, same, cache, tallest⟩

theorem inset_same (one other : CGRect) (frame : CGRect) (here : CGRectInset one cellPadding cellPadding = some frame)
    (there : CGRectInset other cellPadding cellPadding = some frame) :
    CGRectStandardize one = CGRectStandardize other := by
  unfold CGRectInset at here there
  dsimp only at here there
  split_ifs at here there
  obtain ⟨x, y, width, height⟩ := CGRect.mk.inj ((Option.some.inj here).trans (Option.some.inj there).symm)
  generalize CGRectStandardize one = standard at x y width height ⊢
  generalize CGRectStandardize other = standard' at x y width height ⊢
  cases standard
  cases standard'
  simp only [CGRect.mk.injEq]
  dsimp only at x y width height
  refine ⟨?_, ?_, ?_, ?_⟩ <;> linarith

-- A width is known from the standard form and the place of the origin.
theorem standard_width (one other : CGRect) (origin : one.x = other.x)
    (same : CGRectStandardize one = CGRectStandardize other) : one.width = other.width := by
  have x : (CGRectStandardize one).x = (CGRectStandardize other).x := by rw [same]
  have width : |one.width| = |other.width| := congrArg CGRect.width same
  unfold CGRectStandardize at x
  dsimp only at x
  rw [origin] at x
  by_cases left : one.width < 0
  · by_cases left' : other.width < 0
    · rw [if_pos left, if_pos left'] at x
      linarith
    · rw [if_pos left, if_neg left'] at x
      linarith
  · by_cases left' : other.width < 0
    · rw [if_neg left, if_pos left'] at x
      linarith
    · rw [abs_of_nonneg (not_lt.mp left), abs_of_nonneg (not_lt.mp left')] at width
      exact width

def Content.room (content : Content) (item : Nat) : CGRect :=
  itemRoom (newLayout numberOfColumns cellPadding) content.collectionView content.delegate item

theorem room_height (content : Content) (item : Nat) :
    (content.room numberOfColumns cellPadding item).height =
        content.photo numberOfColumns cellPadding item + content.annotation numberOfColumns cellPadding item +
          2 * cellPadding ∧
      2 * cellPadding ≤ (content.room numberOfColumns cellPadding item).height := by
  have photo := content.delegate.photo_nonneg item
    (measuringWidth (newLayout numberOfColumns cellPadding) content.collectionView)
  have annotation := content.delegate.annotation_nonneg item
    (measuringWidth (newLayout numberOfColumns cellPadding) content.collectionView)
  have parts : (content.room numberOfColumns cellPadding item).height =
      content.photo numberOfColumns cellPadding item + content.annotation numberOfColumns cellPadding item +
        2 * cellPadding := rfl
  refine ⟨parts, ?_⟩
  rw [parts]
  unfold Content.photo Content.annotation photoHeight annotationHeight
  linarith

-- The standard form of the room keeps its width up to the sign, and the room is
-- always high enough for its paddings.
theorem frame_null_iff (content : Content) (item : Nat) :
    (content.attributes numberOfColumns cellPadding item).frame = none ↔
      0 < content.width numberOfColumns cellPadding ∧
        content.width numberOfColumns cellPadding < 4 * cellPadding := by
  have high := (room_height numberOfColumns cellPadding content item).2
  have tall : ¬ |(content.room numberOfColumns cellPadding item).height| < 2 * cellPadding :=
    not_lt.mpr (high.trans (le_abs_self _))
  have width : (content.room numberOfColumns cellPadding item).width =
      content.width numberOfColumns cellPadding - 2 * cellPadding := rfl
  have narrow : ((CGRectStandardize (content.room numberOfColumns cellPadding item)).width < 2 * cellPadding ∨
      (CGRectStandardize (content.room numberOfColumns cellPadding item)).height < 2 * cellPadding) ↔
      0 < content.width numberOfColumns cellPadding ∧ content.width numberOfColumns cellPadding < 4 * cellPadding := by
    refine (or_iff_left tall).trans ?_
    have sign : (CGRectStandardize (content.room numberOfColumns cellPadding item)).width =
        |content.width numberOfColumns cellPadding - 2 * cellPadding| := rfl
    rw [sign, abs_lt]
    constructor
    · rintro ⟨left, right⟩
      constructor <;> linarith
    · rintro ⟨left, right⟩
      constructor <;> linarith
  rw [← narrow]
  unfold Content.attributes itemAttributes CGRectInset
  dsimp only
  exact ite_eq_left_iff.trans ⟨fun other => by_contra fun wide => (Option.some_ne_none _ (other wide)).elim,
    fun null wide => absurd null wide⟩

theorem nothing_shown (layout : PinterestLayout) (content : Content)
    (filled : FilledFrom numberOfColumns cellPadding layout content)
    (nothing : ShowsNothing numberOfColumns cellPadding content) (rect : CGRect) :
    layoutAttributesForElementsInRect layout rect = [] := by
  rw [layoutAttributesForElementsInRect, filled.cache]
  refine List.filter_eq_nil_iff.mpr fun shown member => ?_
  obtain ⟨item, inside, rfl⟩ := List.mem_map.mp member
  rcases nothing with empty | narrow
  · rw [empty] at inside
    cases List.mem_range.mp inside
  · rw [(frame_null_iff numberOfColumns cellPadding content item).mpr narrow]
    exact Bool.false_ne_true

-- An item with a frame is shown in the rectangle of its frame.
theorem item_shown (layout : PinterestLayout) (content : Content) (item : Nat) (frame : CGRect)
    (filled : FilledFrom numberOfColumns cellPadding layout content)
    (inside : item < content.collectionView.numberOfItems)
    (framed : (content.attributes numberOfColumns cellPadding item).frame = some frame) :
    content.attributes numberOfColumns cellPadding item ∈ layoutAttributesForElementsInRect layout frame := by
  refine List.mem_filter.mpr ⟨?_, ?_⟩
  · rw [filled.cache]
    exact List.mem_map_of_mem (List.mem_range.mpr inside)
  · rw [framed]
    exact rect_intersects_itself frame

theorem shown_there (one other : PinterestLayout) (content content' : Content) (item : Nat)
    (filled : FilledFrom numberOfColumns cellPadding one content)
    (filled' : FilledFrom numberOfColumns cellPadding other content')
    (same : ∀ rect, layoutAttributesForElementsInRect one rect = layoutAttributesForElementsInRect other rect)
    (inside : item < content.collectionView.numberOfItems)
    (framed : (content.attributes numberOfColumns cellPadding item).frame ≠ none) :
    item < content'.collectionView.numberOfItems ∧
      content.attributes numberOfColumns cellPadding item = content'.attributes numberOfColumns cellPadding item := by
  obtain ⟨frame, framed⟩ := Option.ne_none_iff_exists'.mp framed
  have shown := item_shown numberOfColumns cellPadding one content item frame filled inside framed
  rw [same, layoutAttributesForElementsInRect, filled'.cache] at shown
  obtain ⟨there, _⟩ := List.mem_filter.mp shown
  obtain ⟨found, below, equal⟩ := List.mem_map.mp there
  obtain rfl : found = item := congrArg PinterestLayoutAttributes.indexPath equal
  exact ⟨List.mem_range.mp below, equal.symm⟩

theorem rooms_same (one other : Content) (item : Nat)
    (same : one.attributes numberOfColumns cellPadding item = other.attributes numberOfColumns cellPadding item)
    (framed : (one.attributes numberOfColumns cellPadding item).frame ≠ none) :
    CGRectStandardize (one.room numberOfColumns cellPadding item) =
      CGRectStandardize (other.room numberOfColumns cellPadding item) := by
  obtain ⟨frame, framed⟩ := Option.ne_none_iff_exists'.mp framed
  exact inset_same cellPadding _ _ frame framed ((congrArg PinterestLayoutAttributes.frame same).symm.trans framed)

theorem widths_same (one other : Content)
    (same : one.attributes numberOfColumns cellPadding 0 = other.attributes numberOfColumns cellPadding 0)
    (framed : (one.attributes numberOfColumns cellPadding 0).frame ≠ none) :
    one.width numberOfColumns cellPadding = other.width numberOfColumns cellPadding := by
  have origin (content : Content) : (content.room numberOfColumns cellPadding 0).x = 0 := by
    have first : (content.room numberOfColumns cellPadding 0).x =
      ((0 % numberOfColumns : Nat) : CGFloat) * content.width numberOfColumns cellPadding := rfl
    rw [first, Nat.zero_mod, Nat.cast_zero, zero_mul]
  have width := standard_width _ _ ((origin one).trans (origin other).symm)
    (rooms_same numberOfColumns cellPadding one other 0 same framed)
  have measured (content : Content) : (content.room numberOfColumns cellPadding 0).width =
    content.width numberOfColumns cellPadding - 2 * cellPadding := rfl
  rw [measured, measured] at width
  linarith

theorem heights_same (padding : 0 ≤ cellPadding) (one other : Content) (item : Nat)
    (same : one.attributes numberOfColumns cellPadding item = other.attributes numberOfColumns cellPadding item)
    (framed : (one.attributes numberOfColumns cellPadding item).frame ≠ none) :
    one.photo numberOfColumns cellPadding item = other.photo numberOfColumns cellPadding item ∧
      one.annotation numberOfColumns cellPadding item = other.annotation numberOfColumns cellPadding item := by
  have photo : one.photo numberOfColumns cellPadding item = other.photo numberOfColumns cellPadding item :=
    congrArg PinterestLayoutAttributes.photoHeight same
  have height : |(one.room numberOfColumns cellPadding item).height| =
      |(other.room numberOfColumns cellPadding item).height| :=
    congrArg CGRect.height (rooms_same numberOfColumns cellPadding one other item same framed)
  obtain ⟨parts, high⟩ := room_height numberOfColumns cellPadding one item
  obtain ⟨parts', high'⟩ := room_height numberOfColumns cellPadding other item
  rw [abs_of_nonneg (by linarith), abs_of_nonneg (by linarith), parts, parts', photo] at height
  exact ⟨photo, by linarith⟩

theorem measured_heights (one other : Content) (measures : SameMeasures numberOfColumns cellPadding one other)
    (item : Nat) (inside : item < one.collectionView.numberOfItems) :
    (one.room numberOfColumns cellPadding item).height = (other.room numberOfColumns cellPadding item).height := by
  rw [(room_height numberOfColumns cellPadding one item).1, (room_height numberOfColumns cellPadding other item).1,
    measures.photo item inside, measures.annotation item inside]

theorem measured_attributes (one other : Content) (measures : SameMeasures numberOfColumns cellPadding one other)
    (item : Nat) (inside : item < one.collectionView.numberOfItems) :
    one.attributes numberOfColumns cellPadding item = other.attributes numberOfColumns cellPadding item := by
  have x : (one.room numberOfColumns cellPadding item).x = (other.room numberOfColumns cellPadding item).x :=
    congrArg (((item % numberOfColumns : Nat) : CGFloat) * ·) measures.width
  have y : (one.room numberOfColumns cellPadding item).y = (other.room numberOfColumns cellPadding item).y :=
    total_congr _ _ _ _ item fun earlier before =>
      measured_heights numberOfColumns cellPadding one other measures earlier (Nat.lt_trans before inside)
  have width :
      (one.room numberOfColumns cellPadding item).width = (other.room numberOfColumns cellPadding item).width :=
    congrArg (· - 2 * cellPadding) measures.width
  have height := measured_heights numberOfColumns cellPadding one other measures item inside
  have room : one.room numberOfColumns cellPadding item = other.room numberOfColumns cellPadding item :=
    CGRect.mk.injEq .. ▸ ⟨x, y, width, height⟩
  exact PinterestLayoutAttributes.mk.injEq .. ▸
    ⟨rfl, measures.photo item inside, congrArg (CGRectInset · cellPadding cellPadding) room⟩

theorem measured_tallest (one other : Content) (measures : SameMeasures numberOfColumns cellPadding one other)
    (height : CGFloat) (tallest : one.tallest numberOfColumns cellPadding height) :
    other.tallest numberOfColumns cellPadding height := by
  have totals (column : Nat) := total_congr _ numberOfColumns column _ one.collectionView.numberOfItems
    (measured_heights numberOfColumns cellPadding one other measures)
  obtain ⟨column, below, reached⟩ := tallest.reached
  refine ⟨⟨column, below, ?_⟩, fun column below => ?_⟩
  · rw [← measures.items, ← reached]
    exact (totals column).symm
  · have bound := tallest.bound column below
    rw [← measures.items]
    exact (totals column).symm.trans_le bound

theorem nothing_there (one other : PinterestLayout) (content content' : Content)
    (filled : FilledFrom numberOfColumns cellPadding one content)
    (filled' : FilledFrom numberOfColumns cellPadding other content')
    (same : ∀ rect, layoutAttributesForElementsInRect one rect = layoutAttributesForElementsInRect other rect)
    (nothing : ShowsNothing numberOfColumns cellPadding content) :
    ShowsNothing numberOfColumns cellPadding content' := by
  by_contra something
  obtain ⟨some_items, wide⟩ := not_or.mp something
  obtain ⟨frame, framed⟩ := Option.ne_none_iff_exists'.mp fun null =>
    wide ((frame_null_iff numberOfColumns cellPadding content' 0).mp null)
  have shown := item_shown numberOfColumns cellPadding other content' 0 frame filled' (Nat.pos_of_ne_zero some_items)
    framed
  rw [← same, nothing_shown numberOfColumns cellPadding one content filled nothing] at shown
  cases shown

theorem fresh_measures (padding : 0 ≤ cellPadding) (one other : PinterestLayout) (content content' : Content)
    (filled : FilledFrom numberOfColumns cellPadding one content)
    (filled' : FilledFrom numberOfColumns cellPadding other content')
    (same : ∀ rect, layoutAttributesForElementsInRect one rect = layoutAttributesForElementsInRect other rect)
    (something : ¬ ShowsNothing numberOfColumns cellPadding content) :
    SameMeasures numberOfColumns cellPadding content content' := by
  obtain ⟨some_items, wide⟩ := not_or.mp something
  have framed (item : Nat) : (content.attributes numberOfColumns cellPadding item).frame ≠ none := fun null =>
    wide ((frame_null_iff numberOfColumns cellPadding content item).mp null)
  have there (item : Nat) (inside : item < content.collectionView.numberOfItems) :=
    shown_there numberOfColumns cellPadding one other content content' item filled filled' same inside (framed item)
  have first := (there 0 (Nat.pos_of_ne_zero some_items)).2
  have width := widths_same numberOfColumns cellPadding content content' first (framed 0)
  have framed' (item : Nat) : (content'.attributes numberOfColumns cellPadding item).frame ≠ none := fun null =>
    wide (width ▸ (frame_null_iff numberOfColumns cellPadding content' item).mp null)
  have back (item : Nat) (inside : item < content'.collectionView.numberOfItems) :=
    (shown_there numberOfColumns cellPadding other one content' content item filled' filled
      (fun rect => (same rect).symm)
      inside (framed' item)).1
  have heights (item : Nat) (inside : item < content.collectionView.numberOfItems) :=
    heights_same numberOfColumns cellPadding padding content content' item (there item inside).2 (framed item)
  refine ⟨?_, width, fun item inside => (heights item inside).1, fun item inside => (heights item inside).2⟩
  rcases Nat.lt_trichotomy content.collectionView.numberOfItems content'.collectionView.numberOfItems with
    less | equal | more
  · exact absurd (back _ less) (Nat.lt_irrefl _)
  · exact equal
  · exact absurd (there _ more).1 (Nat.lt_irrefl _)

theorem fresh_iff (padding : 0 ≤ cellPadding) (one other : PinterestLayout) (content content' : Content)
    (filled : FilledFrom numberOfColumns cellPadding one content)
    (filled' : FilledFrom numberOfColumns cellPadding other content') :
    ((∀ rect, layoutAttributesForElementsInRect one rect = layoutAttributesForElementsInRect other rect) ∧
        one.contentHeight = other.contentHeight) ↔
      SameLayout numberOfColumns cellPadding content content' := by
  constructor
  · rintro ⟨same, height⟩
    by_cases nothing : ShowsNothing numberOfColumns cellPadding content
    · refine .inr ⟨nothing, nothing_there numberOfColumns cellPadding one other content content' filled filled' same
        nothing, fun tall => ⟨fun tallest => ?_, fun tallest => ?_⟩⟩
      · rw [tallest_unique _ _ _ _ _ tallest filled.tallest, height]
        exact filled'.tallest
      · rw [tallest_unique _ _ _ _ _ tallest filled'.tallest, ← height]
        exact filled.tallest
    · exact .inl (fresh_measures numberOfColumns cellPadding padding one other content content' filled filled' same
        nothing)
  · rintro (measures | ⟨nothing, nothing', tallest⟩)
    · have caches : one.cache = other.cache := by
        rw [filled.cache, filled'.cache, ← measures.items]
        exact List.map_congr_left fun item member =>
          measured_attributes numberOfColumns cellPadding content content' measures item (List.mem_range.mp member)
      refine ⟨fun rect => ?_, tallest_unique _ _ _ _ _
        (measured_tallest numberOfColumns cellPadding content content' measures _ filled.tallest) filled'.tallest⟩
      rw [layoutAttributesForElementsInRect, caches]
      rfl
    · refine ⟨fun rect => ?_, tallest_unique _ _ _ _ _ ((tallest _).mp filled.tallest) filled'.tallest⟩
      rw [nothing_shown numberOfColumns cellPadding one content filled nothing rect,
        nothing_shown numberOfColumns cellPadding other content' filled' nothing' rect]

theorem pass_unfilled (positive : 0 < numberOfColumns) (padding : 0 ≤ cellPadding) (screen after : Screen)
    (unfilled : screen.filled = none) (unprepared : screen.layout = newLayout numberOfColumns cellPadding)
    (taken : layoutPass screen = some after) :
    FreshlyLaidOut numberOfColumns cellPadding after ∧ Tracked numberOfColumns cellPadding after := by
  obtain ⟨fresh, prepared, filled⟩ := fresh_filled numberOfColumns cellPadding positive padding screen.content
  have before : screen.layout.cache.isEmpty = true := by rw [unprepared]; rfl
  rw [layoutPass, unprepared, prepared, Option.map_some, unfilled, ← unprepared, before, Bool.true_and] at taken
  obtain rfl := Option.some.inj taken
  refine ⟨⟨fresh, prepared, fun _ => rfl, rfl⟩, ?_⟩
  by_cases empty : fresh.cache.isEmpty = true
  · have none_placed : fresh.cache = [] := List.isEmpty_iff.mp empty
    have no_items : screen.content.collectionView.numberOfItems = 0 := by
      have count := congrArg List.length filled.cache
      rw [none_placed, List.length_map, List.length_range] at count
      exact count.symm
    have flat : fresh.contentHeight = 0 := by
      have tallest := filled.tallest
      unfold Content.tallest at tallest
      rw [no_items] at tallest
      exact tallest_unique _ _ 0 _ _ tallest (tallest_zero _ _ positive)
    have same : fresh = newLayout numberOfColumns cellPadding :=
      PinterestLayout.mk.injEq .. ▸ ⟨filled.columns, filled.padding, none_placed, flat⟩
    simp only [Tracked, empty, Bool.not_true, Bool.false_eq_true, if_false]
    exact same
  · have some_placed : fresh.cache ≠ [] := fun none => empty (List.isEmpty_iff.mpr none)
    simp only [Tracked, Bool.eq_false_iff.mpr empty, Bool.not_false, if_true]
    exact ⟨filled, some_placed⟩

theorem pass_filled (positive : 0 < numberOfColumns) (padding : 0 ≤ cellPadding) (screen after : Screen)
    (source : Content) (filled : FilledFrom numberOfColumns cellPadding screen.layout source)
    (placed : screen.layout.cache ≠ [])
    (taken : layoutPass screen = some after) :
    after = screen ∧
      (FreshlyLaidOut numberOfColumns cellPadding screen ↔
        SameLayout numberOfColumns cellPadding source screen.content) := by
  have full : screen.layout.cache.isEmpty = false := List.isEmpty_eq_false_iff.mpr placed
  simp only [layoutPass, prepareLayout, full, Bool.false_eq_true, if_false, Option.map_some, Bool.false_and] at taken
  refine ⟨(Option.some.inj taken).symm, ?_⟩
  obtain ⟨fresh, prepared, filled'⟩ := fresh_filled numberOfColumns cellPadding positive padding screen.content
  rw [← fresh_iff numberOfColumns cellPadding padding screen.layout fresh source screen.content filled filled']
  constructor
  · rintro ⟨other, prepared', same, size⟩
    obtain rfl := Option.some.inj (prepared.symm.trans prepared')
    exact ⟨same, congrArg CGSize.height size⟩
  · rintro ⟨same, height⟩
    exact ⟨fresh, prepared, same, congrArg (CGSize.mk _) height⟩

theorem screen_step_fresh (positive : 0 < numberOfColumns) (padding : 0 ≤ cellPadding) (screen : Screen)
    (event : Event) (after : Screen) (tracked : Tracked numberOfColumns cellPadding screen)
    (taken : screenStep screen event = some after) :
    (FreshAfter numberOfColumns cellPadding screen event after ↔
        Unchanged numberOfColumns cellPadding screen event after) ∧ Tracked numberOfColumns cellPadding after := by
  cases event with
  | resize boundsWidth =>
      obtain rfl := Option.some.inj taken
      exact ⟨iff_of_true (fun other => by cases other) (fun other => by cases other), tracked⟩
  | setItems numberOfItems delegate =>
      obtain rfl := Option.some.inj taken
      exact ⟨iff_of_true (fun other => by cases other) (fun other => by cases other), tracked⟩
  | pass =>
      unfold Tracked at tracked
      cases known : screen.filled with
      | none =>
          rw [known] at tracked
          obtain ⟨fresh, kept⟩ := pass_unfilled numberOfColumns cellPadding positive padding screen after known tracked
            taken
          refine ⟨iff_of_true (fun _ => fresh) fun _ source found => ?_, kept⟩
          rw [known] at found
          cases found
      | some source =>
          rw [known] at tracked
          obtain ⟨filled, placed⟩ := tracked
          obtain ⟨rfl, fresh⟩ := pass_filled numberOfColumns cellPadding positive padding screen after source
            filled placed taken
          refine ⟨?_, ?_⟩
          · unfold FreshAfter Unchanged
            rw [fresh, known]
            constructor
            · rintro same _ _ ⟨⟩
              exact same rfl
            · exact fun same _ => same rfl source rfl
          · unfold Tracked
            rw [known]
            exact ⟨filled, placed⟩

theorem layout_fresh_iff (positive : 1 ≤ numberOfColumns) (padding : 0 ≤ cellPadding) (content : Content)
    (events : List Event) :
    Steps screenStep (FreshAfter numberOfColumns cellPadding) (firstScreen numberOfColumns cellPadding content) events ↔
      Steps screenStep (Unchanged numberOfColumns cellPadding) (firstScreen numberOfColumns cellPadding content)
        events :=
  steps_iff screenStep (Tracked numberOfColumns cellPadding) _ _
    (fun screen event after tracked taken =>
      (screen_step_fresh numberOfColumns cellPadding positive padding screen event after tracked taken).1)
    (fun screen event after tracked taken _ =>
      (screen_step_fresh numberOfColumns cellPadding positive padding screen event after tracked taken).2)
    _ events rfl

def onePhoto : Content := ⟨⟨210, 5, 5, 1⟩, squarePhotos⟩

theorem layout_fresh_twice :
    Steps screenStep (FreshAfter 2 6) (firstScreen 2 6 onePhoto) [.pass, .resize 210, .pass] := by
  refine (layout_fresh_iff 2 6 (by decide) (by decide) onePhoto _).mpr fun first taken => ?_
  obtain rfl := Option.some.inj taken
  refine ⟨fun _ _ absent => (by cases absent), fun second resized => ?_⟩
  obtain rfl := Option.some.inj resized
  refine ⟨fun other => (by cases other), fun _ _ => ⟨fun _ source found => ?_, trivial⟩⟩
  obtain rfl := Option.some.inj found
  exact .inl ⟨rfl, rfl, fun _ _ => rfl, fun _ _ => rfl⟩

theorem rotation_keeps_frames :
    ¬ ∀ content events, Steps screenStep (FreshAfter 2 6) (firstScreen 2 6 content) events := by
  intro all
  have last := steps_after _ _ (firstScreen 2 6 onePhoto) _ [.pass, .resize 310] [.pass] rfl (all _ _)
  obtain ⟨fresh, _⟩ := last _ rfl
  obtain ⟨laid, prepared, _, size⟩ := fresh rfl
  obtain rfl := Option.some.inj prepared
  exact absurd (congrArg CGSize.height size) (by decide +kernel)

end CultivationMotain.Pinterest

import CultivationMotain.Foundation.Masonry
import CultivationMotain.LBSelector.LBSelector
import Mathlib.Tactic.Linarith

set_option autoImplicit false

namespace CultivationMotain.LBSelector

open Foundation

inductive View where
  | superview
  | selector
  | extendView
  | coverView
  | item (place : Nat)
deriving DecidableEq, Repr

def buttonInterSpace : CGFloat := 9

def vSpaceToExtendView : CGFloat := 10

def itemHeight : CGFloat := 28

section Constraints

variable (screenWidth : CGFloat)

def itemWidth : CGFloat := (screenWidth - 45) / 4

def acrossConstraints (place : Nat) : Option Nat → List (MASConstraint View)
  | some refrenceButton1 =>
      [⟨⟨.item place, .leading⟩, some ⟨.item refrenceButton1, .trailing⟩, buttonInterSpace⟩,
        ⟨⟨.item place, .centerY⟩, some ⟨.item refrenceButton1, .centerY⟩, 0⟩]
  | none => [⟨⟨.item place, .leading⟩, some ⟨.extendView, .leading⟩, buttonInterSpace⟩]

def downConstraints (place : Nat) : Option (Option Nat) → List (MASConstraint View)
  | some (some refrenceButton2) =>
      [⟨⟨.item place, .top⟩, some ⟨.item refrenceButton2, .bottom⟩, buttonInterSpace⟩]
  | some none => [⟨⟨.item place, .top⟩, some ⟨.extendView, .top⟩, vSpaceToExtendView⟩]
  | none => []

def itemConstraints (place : Nat) (button : ItemButton) : List (MASConstraint View) :=
  [⟨⟨.item place, .width⟩, none, itemWidth screenWidth⟩, ⟨⟨.item place, .height⟩, none, itemHeight⟩] ++
    acrossConstraints place button.leading ++
    (if button.trailing then [⟨⟨.item place, .trailing⟩, some ⟨.extendView, .trailing⟩, -buttonInterSpace⟩] else []) ++
    downConstraints place button.top ++
    (if button.bottom then [⟨⟨.item place, .bottom⟩, some ⟨.extendView, .bottom⟩, -vSpaceToExtendView⟩] else [])

def extendConstraints : List (MASConstraint View) :=
  [⟨⟨.extendView, .top⟩, some ⟨.selector, .bottom⟩, 0⟩,
    ⟨⟨.extendView, .leading⟩, some ⟨.selector, .leading⟩, 0⟩,
    ⟨⟨.extendView, .trailing⟩, some ⟨.selector, .trailing⟩, 0⟩]

-- The constraints of the cover.
def updateConstraints : List (MASConstraint View) :=
  [⟨⟨.coverView, .top⟩, some ⟨.extendView, .bottom⟩, 0⟩,
    ⟨⟨.coverView, .leading⟩, some ⟨.selector, .leading⟩, 0⟩,
    ⟨⟨.coverView, .trailing⟩, some ⟨.selector, .trailing⟩, 0⟩,
    ⟨⟨.coverView, .bottom⟩, some ⟨.superview, .bottom⟩, 0⟩]

def constraints (selector : Selector) : List (MASConstraint View) :=
  (selector.extendView.zipIdx.flatMap fun entry => itemConstraints screenWidth entry.2 entry.1) ++
    extendConstraints ++ updateConstraints

-- The frames of the selector and its superview are given.
structure Solves (selectorFrame superviewFrame : CGRect) (selector : Selector) (frames : View → CGRect) : Prop where
  given : frames .selector = selectorFrame
  above : frames .superview = superviewFrame
  solved : SatisfiesAll frames (constraints screenWidth selector)

-- The items in rows of four.
def gridItem (container : CGRect) (idx : Nat) : CGRect :=
  ⟨container.x + buttonInterSpace + (idx % 4 : Nat) * (itemWidth screenWidth + buttonInterSpace),
    container.y + vSpaceToExtendView + (idx / 4 : Nat) * (itemHeight + buttonInterSpace),
    itemWidth screenWidth, itemHeight⟩

def rows (count : Nat) : Nat := (count + 3) / 4

def gridHeight (count : Nat) : CGFloat :=
  rows count * itemHeight + (rows count - 1) * buttonInterSpace + 2 * vSpaceToExtendView

def gridContainer (selectorFrame : CGRect) (count : Nat) : CGRect :=
  ⟨selectorFrame.x, selectorFrame.y + selectorFrame.height, selectorFrame.width, gridHeight count⟩

def gridCover (selectorFrame superviewFrame container : CGRect) : CGRect :=
  ⟨selectorFrame.x, container.y + container.height, selectorFrame.width,
    superviewFrame.y + superviewFrame.height - (container.y + container.height)⟩

def grid (selectorFrame superviewFrame : CGRect) (count : Nat) : View → CGRect
  | .superview => superviewFrame
  | .selector => selectorFrame
  | .extendView => gridContainer selectorFrame count
  | .coverView => gridCover selectorFrame superviewFrame (gridContainer selectorFrame count)
  | .item idx => gridItem screenWidth (gridContainer selectorFrame count) idx

def InUse (count : Nat) : View → Prop
  | .item idx => idx < count
  | _ => True

end Constraints

theorem rect_eq_iff (frame other : CGRect) :
    frame = other ↔
      frame.x = other.x ∧ frame.y = other.y ∧ frame.width = other.width ∧ frame.height = other.height := by
  cases frame
  cases other
  simp only [CGRect.mk.injEq]

-- A property that agrees with another one where that one holds of all earlier
-- places agrees with it everywhere.
theorem forall_below_iff (count : Nat) (P Q : Nat → Prop)
    (each : ∀ idx < count, (∀ earlier < idx, Q earlier) → (P idx ↔ Q idx)) :
    (∀ idx < count, P idx) ↔ ∀ idx < count, Q idx := by
  constructor
  · intro all idx
    induction idx using Nat.strong_induction_on with
    | h idx ih =>
        intro below
        exact (each idx below fun earlier before => ih earlier before (before.trans below)).mp (all idx below)
  · intro all idx below
    exact (each idx below fun earlier before => all earlier (before.trans below)).mpr (all idx below)

section Solving

variable (screenWidth : CGFloat) (frames : View → CGRect)

-- The constraints that place an item, without those that touch the far edges
-- of the container.
def Placed (place : Nat) (button : ItemButton) : Prop :=
  (frames (.item place)).width = itemWidth screenWidth ∧ (frames (.item place)).height = itemHeight ∧
    SatisfiesAll frames (acrossConstraints place button.leading) ∧
    SatisfiesAll frames (downConstraints place button.top)

theorem satisfies_item_iff (place : Nat) (button : ItemButton) :
    SatisfiesAll frames (itemConstraints screenWidth place button) ↔
      Placed screenWidth frames place button ∧
      (button.trailing = true → (frames (.item place)).x + (frames (.item place)).width =
        (frames .extendView).x + (frames .extendView).width - buttonInterSpace) ∧
      (button.bottom = true → (frames (.item place)).y + (frames (.item place)).height =
        (frames .extendView).y + (frames .extendView).height - vSpaceToExtendView) := by
  have size : SatisfiesAll frames [⟨⟨.item place, .width⟩, none, itemWidth screenWidth⟩,
      ⟨⟨.item place, .height⟩, none, itemHeight⟩] ↔
      (frames (.item place)).width = itemWidth screenWidth ∧ (frames (.item place)).height = itemHeight := by
    simp [SatisfiesAll]
  simp only [itemConstraints, satisfies_append, satisfies_if, size, Placed, sub_eq_add_neg]
  constructor
  · rintro ⟨⟨⟨⟨⟨width, height⟩, across⟩, trailing⟩, down⟩, bottom⟩
    exact ⟨⟨width, height, across, down⟩, trailing, bottom⟩
  · rintro ⟨⟨width, height, across, down⟩, trailing, bottom⟩
    exact ⟨⟨⟨⟨⟨width, height⟩, across⟩, trailing⟩, down⟩, bottom⟩

theorem satisfies_row_start (place : Nat) :
    SatisfiesAll frames (acrossConstraints place none) ↔
      (frames (.item place)).x = (frames .extendView).x + buttonInterSpace := by
  simp [SatisfiesAll, acrossConstraints]

theorem satisfies_beside (place other : Nat) :
    SatisfiesAll frames (acrossConstraints place (some other)) ↔
      (frames (.item place)).x = (frames (.item other)).x + (frames (.item other)).width + buttonInterSpace ∧
        (frames (.item place)).y + (frames (.item place)).height / 2 =
          (frames (.item other)).y + (frames (.item other)).height / 2 := by
  simp [SatisfiesAll, acrossConstraints]

theorem satisfies_top_row (place : Nat) :
    SatisfiesAll frames (downConstraints place (some none)) ↔
      (frames (.item place)).y = (frames .extendView).y + vSpaceToExtendView := by
  simp [SatisfiesAll, downConstraints]

theorem satisfies_below (place other : Nat) :
    SatisfiesAll frames (downConstraints place (some (some other))) ↔
      (frames (.item place)).y = (frames (.item other)).y + (frames (.item other)).height + buttonInterSpace := by
  simp [SatisfiesAll, downConstraints]

theorem satisfies_within_row (place : Nat) : SatisfiesAll frames (downConstraints place none) :=
  fun _ listed => absurd listed List.not_mem_nil

-- An item stands where the grid has it once the earlier ones do.
theorem placed_iff (idx : Nat) (button : ItemButton) (leading : button.leading = rowLeading idx)
    (top : button.top = rowTop idx)
    (before : ∀ earlier < idx, frames (.item earlier) = gridItem screenWidth (frames .extendView) earlier) :
    Placed screenWidth frames idx button ↔ frames (.item idx) = gridItem screenWidth (frames .extendView) idx := by
  rw [Placed, leading, top, rect_eq_iff, gridItem]
  by_cases aligned : idx % 4 = 0
  · have start : rowLeading idx = none := by rw [rowLeading, if_pos aligned]
    rw [start, satisfies_row_start, rowTop, if_pos aligned, aligned]
    by_cases first : idx = 0
    · subst first
      rw [if_pos rfl, satisfies_top_row]
      simp only [Nat.zero_div, Nat.cast_zero, zero_mul, add_zero]
      tauto
    · have above := before (idx - 4) (by omega)
      have row : ((idx / 4 : Nat) : CGFloat) = ((idx - 4) / 4 : Nat) + 1 := by
        have next : idx / 4 = (idx - 4) / 4 + 1 := by omega
        rw [next, Nat.cast_succ]
      rw [if_neg first, satisfies_below, above, gridItem, row]
      simp only [Nat.cast_zero, zero_mul, add_zero]
      constructor
      · rintro ⟨width, height, across, down⟩
        exact ⟨across, by linarith, width, height⟩
      · rintro ⟨across, down, width, height⟩
        exact ⟨width, height, across, by linarith⟩
  · have beside := before (idx - 1) (by omega)
    have column : ((idx % 4 : Nat) : CGFloat) = ((idx - 1) % 4 : Nat) + 1 := by
      have next : idx % 4 = (idx - 1) % 4 + 1 := by omega
      rw [next, Nat.cast_succ]
    have row : (idx - 1) / 4 = idx / 4 := by omega
    rw [rowLeading, if_neg aligned, rowTop, if_neg aligned, satisfies_beside, beside, gridItem, column, row]
    have within := satisfies_within_row frames idx
    constructor
    · rintro ⟨width, height, ⟨across, level⟩, _⟩
      rw [height] at level
      exact ⟨by linarith, by linarith, width, height⟩
    · rintro ⟨across, down, width, height⟩
      refine ⟨width, height, ⟨by linarith, ?_⟩, within⟩
      rw [height, down]

-- A full row fills the width of the container but for a space at each side.
theorem row_filled (container : CGRect) (idx : Nat) (ends : (idx + 1) % 4 = 0) :
    (gridItem screenWidth container idx).x + (gridItem screenWidth container idx).width =
      container.x + screenWidth - buttonInterSpace := by
  have column : idx % 4 = 3 := by omega
  simp only [gridItem, column, itemWidth, buttonInterSpace]
  push_cast
  ring

theorem last_row (container : CGRect) (idx : Nat) :
    (gridItem screenWidth container idx).y + (gridItem screenWidth container idx).height =
      container.y + gridHeight (idx + 1) - vSpaceToExtendView := by
  have row : ((rows (idx + 1) : Nat) : CGFloat) = (idx / 4 : Nat) + 1 := by
    have next : rows (idx + 1) = idx / 4 + 1 := by
      rw [rows]
      omega
    rw [next, Nat.cast_succ]
  simp only [gridItem, gridHeight, row]
  ring

theorem item_satisfied_iff (idx count : Nat) (title : String) (width : (frames .extendView).width = screenWidth)
    (before : ∀ earlier < idx, frames (.item earlier) = gridItem screenWidth (frames .extendView) earlier) :
    SatisfiesAll frames (itemConstraints screenWidth idx
        ⟨title, rowLeading idx, rowTop idx, (idx + 1) % 4 = 0, idx + 1 = count⟩) ↔
      frames (.item idx) = gridItem screenWidth (frames .extendView) idx ∧
        (idx + 1 = count → (frames .extendView).height = gridHeight count) := by
  rw [satisfies_item_iff, placed_iff screenWidth frames idx _ rfl rfl before]
  refine and_congr_right fun placed => ?_
  simp only [placed, decide_eq_true_eq]
  have filled := row_filled screenWidth (frames .extendView) idx
  have last := last_row screenWidth (frames .extendView) idx
  constructor
  · rintro ⟨_, bottom⟩ rfl
    linarith [bottom rfl]
  · intro height
    refine ⟨fun ends => by rw [filled ends, width], ?_⟩
    rintro rfl
    rw [last, height rfl]

theorem item_button (titles : List String) (idx : Nat) :
    (itemButtons titles)[idx]? = titles[idx]?.map fun title =>
      ⟨title, rowLeading idx, rowTop idx, (idx + 1) % 4 = 0, idx + 1 = titles.length⟩ := by
  rw [items_in_rows, List.getElem?_map, List.getElem?_zipIdx, Option.map_map, Nat.zero_add]
  rfl

theorem satisfies_items_iff (titles : List String) :
    SatisfiesAll frames ((itemButtons titles).zipIdx.flatMap fun entry =>
        itemConstraints screenWidth entry.2 entry.1) ↔
      ∀ idx < titles.length, ∀ title, titles[idx]? = some title →
        SatisfiesAll frames (itemConstraints screenWidth idx
          ⟨title, rowLeading idx, rowTop idx, (idx + 1) % 4 = 0, idx + 1 = titles.length⟩) := by
  rw [SatisfiesAll, List.forall_mem_flatMap]
  constructor
  · intro all idx below title present
    refine all (_, idx) (List.mem_zipIdx_iff_getElem?.mpr ?_)
    rw [item_button, present, Option.map_some]
  · rintro all ⟨button, idx⟩ listed
    have placed : (itemButtons titles)[idx]? = some button := List.mem_zipIdx_iff_getElem?.mp listed
    rw [item_button] at placed
    obtain ⟨title, present, rfl⟩ := Option.map_eq_some_iff.mp placed
    exact all idx (List.getElem?_eq_some_iff.mp present).1 title present

theorem items_satisfied_iff (titles : List String) (nonempty : titles ≠ [])
    (width : (frames .extendView).width = screenWidth) :
    SatisfiesAll frames ((itemButtons titles).zipIdx.flatMap fun entry =>
        itemConstraints screenWidth entry.2 entry.1) ↔
      (∀ idx < titles.length, frames (.item idx) = gridItem screenWidth (frames .extendView) idx) ∧
        (frames .extendView).height = gridHeight titles.length := by
  rw [satisfies_items_iff, forall_below_iff titles.length _ (fun idx =>
    frames (.item idx) = gridItem screenWidth (frames .extendView) idx ∧
      (idx + 1 = titles.length → (frames .extendView).height = gridHeight titles.length))]
  · have positive : 0 < titles.length := List.length_pos_of_ne_nil nonempty
    constructor
    · intro all
      exact ⟨fun idx below => (all idx below).1, (all (titles.length - 1) (by omega)).2 (by omega)⟩
    · rintro ⟨placed, height⟩ idx below
      exact ⟨placed idx below, fun _ => height⟩
  · intro idx below earlier
    have present : titles[idx]? = some titles[idx] := List.getElem?_eq_getElem below
    rw [← item_satisfied_iff screenWidth frames idx titles.length titles[idx] width
      fun other before => (earlier other before).1]
    simp [present]

theorem satisfies_extend_iff :
    SatisfiesAll frames extendConstraints ↔
      (frames .extendView).y = (frames .selector).y + (frames .selector).height ∧
      (frames .extendView).x = (frames .selector).x ∧
      (frames .extendView).x + (frames .extendView).width = (frames .selector).x + (frames .selector).width := by
  simp [SatisfiesAll, extendConstraints]

theorem satisfies_cover_iff :
    SatisfiesAll frames updateConstraints ↔
      (frames .coverView).y = (frames .extendView).y + (frames .extendView).height ∧
      (frames .coverView).x = (frames .selector).x ∧
      (frames .coverView).x + (frames .coverView).width = (frames .selector).x + (frames .selector).width ∧
      (frames .coverView).y + (frames .coverView).height =
        (frames .superview).y + (frames .superview).height := by
  simp [SatisfiesAll, updateConstraints]

variable (selectorFrame superviewFrame : CGRect) (selector : Selector) (titles : List String)

-- The constraints leave the frames of the grid and no others.
theorem solves_iff (shown : selector.extendView = itemButtons titles) (nonempty : titles ≠ [])
    (width : selectorFrame.width = screenWidth) :
    Solves screenWidth selectorFrame superviewFrame selector frames ↔
      ∀ view, InUse titles.length view →
        frames view = grid screenWidth selectorFrame superviewFrame titles.length view := by
  have split : SatisfiesAll frames (constraints screenWidth selector) ↔
      (SatisfiesAll frames ((itemButtons titles).zipIdx.flatMap fun entry =>
        itemConstraints screenWidth entry.2 entry.1) ∧ SatisfiesAll frames extendConstraints) ∧
      SatisfiesAll frames updateConstraints := by
    rw [constraints, shown, satisfies_append, satisfies_append]
  constructor
  · rintro ⟨given, above, solved⟩
    obtain ⟨⟨items, extend⟩, cover⟩ := split.mp solved
    obtain ⟨top, leading, trailing⟩ := (satisfies_extend_iff frames).mp extend
    obtain ⟨coverTop, coverLeading, coverTrailing, coverBottom⟩ := (satisfies_cover_iff frames).mp cover
    rw [given] at top leading trailing coverLeading coverTrailing
    rw [above] at coverBottom
    have across : (frames .extendView).width = screenWidth := by linarith
    obtain ⟨placed, height⟩ := (items_satisfied_iff screenWidth frames titles nonempty across).mp items
    have container : frames .extendView = gridContainer selectorFrame titles.length :=
      (rect_eq_iff _ _).mpr ⟨leading, top, across.trans width.symm, height⟩
    intro view used
    cases view with
    | superview => exact above
    | selector => exact given
    | extendView => exact container
    | coverView =>
        rw [container] at coverTop
        exact (rect_eq_iff _ _).mpr ⟨coverLeading, coverTop, by simp only [grid, gridCover]; linarith,
          by simp only [grid, gridCover]; linarith⟩
    | item idx =>
        rw [placed idx used, container]
        rfl
  · intro agrees
    have given := agrees .selector trivial
    have above := agrees .superview trivial
    have container := agrees .extendView trivial
    have cover := agrees .coverView trivial
    have across : (frames .extendView).width = screenWidth := by
      rw [container]
      exact width
    refine ⟨given, above, split.mpr ⟨⟨?_, ?_⟩, ?_⟩⟩
    · refine (items_satisfied_iff screenWidth frames titles nonempty across).mpr ⟨fun idx below => ?_, ?_⟩
      · rw [agrees (.item idx) below, container]
        rfl
      · rw [container]
        rfl
    · rw [satisfies_extend_iff, container, given]
      exact ⟨rfl, rfl, rfl⟩
    · rw [satisfies_cover_iff, cover, container, given, above]
      exact ⟨rfl, rfl, rfl, add_sub_cancel _ _⟩

end Solving

section Geometry

variable (screenWidth : CGFloat)

-- The items lie four in a row, the rows below one another, apart and inside the
-- container, which is as high as its rows.
structure InGrid (count : Nat) (frames : View → CGRect) : Prop where
  placed : ∀ idx < count, frames (.item idx) = gridItem screenWidth (frames .extendView) idx
  apart : ∀ first < count, ∀ second < count, first ≠ second →
    CGRectIntersectsRect (frames (.item first)) (frames (.item second)) = false
  inside : ∀ idx < count, (frames .extendView).x ≤ (frames (.item idx)).x ∧
    (frames (.item idx)).x + (frames (.item idx)).width ≤ (frames .extendView).x + (frames .extendView).width
  height : (frames .extendView).height = gridHeight count

theorem item_width_positive (wide : 45 < screenWidth) : 0 < itemWidth screenWidth :=
  div_pos (sub_pos.mpr wide) (by norm_num)

-- Cells of one size with a space between them do not touch.
theorem cells_apart (start size space : CGFloat) (positive : 0 < size) (between : 0 < space) (first second : Nat)
    (before : first < second) : start + first * (size + space) + size < start + second * (size + space) := by
  have next : (first : CGFloat) + 1 ≤ second := by exact_mod_cast before
  have stride := mul_le_mul_of_nonneg_right next (add_pos positive between).le
  linarith

theorem items_intersect_iff (wide : 45 < screenWidth) (container : CGRect) (first second : Nat) :
    CGRectIntersectsRect (gridItem screenWidth container first) (gridItem screenWidth container second) = true ↔
      first = second := by
  have width := item_width_positive screenWidth wide
  have height : (0 : CGFloat) < itemHeight := by norm_num [itemHeight]
  have space : (0 : CGFloat) < buttonInterSpace := by norm_num [buttonInterSpace]
  have standard : ∀ idx, CGRectStandardize (gridItem screenWidth container idx) = gridItem screenWidth container idx :=
    fun idx => standardize_nonneg _ width.le height.le
  constructor
  · intro meets
    simp only [CGRectIntersectsRect, CGRectGetMinX, CGRectGetMaxX, CGRectGetMinY, CGRectGetMaxY, standard,
      Bool.and_eq_true, decide_eq_true_eq, and_assoc] at meets
    obtain ⟨left, right, up, down⟩ := meets
    have across := cells_apart (container.x + buttonInterSpace) _ _ width space
    have below := cells_apart (container.y + vSpaceToExtendView) _ _ height space
    have column : first % 4 = second % 4 := by
      rcases lt_trichotomy (first % 4) (second % 4) with less | same | more
      · exact absurd right (not_le_of_gt (across _ _ less))
      · exact same
      · exact absurd left (not_le_of_gt (across _ _ more))
    have row : first / 4 = second / 4 := by
      rcases lt_trichotomy (first / 4) (second / 4) with less | same | more
      · exact absurd down (not_le_of_gt (below _ _ less))
      · exact same
      · exact absurd up (not_le_of_gt (below _ _ more))
    rw [← Nat.div_add_mod first 4, ← Nat.div_add_mod second 4, column, row]
  · rintro rfl
    exact rect_intersects_itself _

theorem item_inside (wide : 45 < screenWidth) (container : CGRect) (width : container.width = screenWidth) (idx : Nat) :
    container.x ≤ (gridItem screenWidth container idx).x ∧
      (gridItem screenWidth container idx).x + (gridItem screenWidth container idx).width ≤
        container.x + container.width := by
  have positive := item_width_positive screenWidth wide
  have least : (0 : CGFloat) ≤ (idx % 4 : Nat) := Nat.cast_nonneg _
  have most : ((idx % 4 : Nat) : CGFloat) ≤ 3 := by
    exact_mod_cast Nat.le_of_lt_succ (Nat.mod_lt idx (by decide))
  have stride : (0 : CGFloat) ≤ itemWidth screenWidth + 9 := by linarith
  have before := mul_nonneg least stride
  have after := mul_le_mul_of_nonneg_right most stride
  have whole : screenWidth = 4 * itemWidth screenWidth + 45 := by
    rw [itemWidth]
    ring
  rw [width]
  simp only [gridItem, buttonInterSpace]
  constructor <;> linarith

theorem solution_in_grid (wide : 45 < screenWidth) (selectorFrame superviewFrame : CGRect)
    (width : selectorFrame.width = screenWidth) (count : Nat) (frames : View → CGRect)
    (agrees : ∀ view, InUse count view → frames view = grid screenWidth selectorFrame superviewFrame count view) :
    InGrid screenWidth count frames := by
  have container : frames .extendView = gridContainer selectorFrame count := agrees .extendView trivial
  have placed : ∀ idx < count, frames (.item idx) = gridItem screenWidth (frames .extendView) idx := by
    intro idx below
    rw [agrees (.item idx) below, container]
    rfl
  have across : (frames .extendView).width = screenWidth := by
    rw [container]
    exact width
  refine ⟨placed, fun first one second other different => ?_, fun idx below => ?_, ?_⟩
  · rw [placed first one, placed second other, ← Bool.not_eq_true, items_intersect_iff screenWidth wide]
    exact different
  · rw [placed idx below]
    exact item_inside screenWidth wide _ across idx
  · rw [container]
    rfl

theorem show_sub_selector_items (selector : Selector) (button : TitleButton) (dic : NSDictionary) (titles : List String)
    (found : selector.array[button.tag % 10]? = some dic) (group : (allValues dic).head? = some titles) :
    (showSubSelector selector button).extendView = itemButtons titles := by
  simp only [showSubSelector, found, group, Option.getD_some]

-- The constraints have exactly one solution, and it is the grid.
theorem item_grid_unique (wide : 45 < screenWidth) (selectorFrame superviewFrame : CGRect)
    (width : selectorFrame.width = screenWidth) (selector : Selector) (button : TitleButton) (dic : NSDictionary)
    (titles : List String) (found : selector.array[button.tag % 10]? = some dic)
    (group : (allValues dic).head? = some titles) (nonempty : titles ≠ []) :
    ∃ frames, Solves screenWidth selectorFrame superviewFrame (showSubSelector selector button) frames ∧
      InGrid screenWidth titles.length frames ∧
      ∀ other, Solves screenWidth selectorFrame superviewFrame (showSubSelector selector button) other →
        ∀ view, InUse titles.length view → other view = frames view := by
  have shown := show_sub_selector_items selector button dic titles found group
  have solved := fun frames => solves_iff screenWidth frames selectorFrame superviewFrame
    (showSubSelector selector button) titles shown nonempty width
  refine ⟨grid screenWidth selectorFrame superviewFrame titles.length, (solved _).mpr fun _ _ => rfl, ?_, ?_⟩
  · exact solution_in_grid screenWidth wide selectorFrame superviewFrame width titles.length _ fun _ _ => rfl
  · intro other solves
    exact (solved other).mp solves

end Geometry

def typeSelector : Selector := initWithArray 375 (some [[("Type", ["All", "Attack", "Defence", "Move", "Jungle"])]])

theorem five_items_in_grid :
    ∃ frames, Solves 375 ⟨0, 64, 375, 44⟩ ⟨0, 0, 375, 667⟩
        (showSubSelector typeSelector (titleButton 375 1 [("Type", [])] 0)) frames ∧
      InGrid 375 5 frames ∧ (frames .extendView).height = 85 := by
  obtain ⟨frames, solves, inGrid, _⟩ := item_grid_unique 375 (by norm_num) ⟨0, 64, 375, 44⟩ ⟨0, 0, 375, 667⟩ rfl
    typeSelector (titleButton 375 1 [("Type", [])] 0) [("Type", ["All", "Attack", "Defence", "Move", "Jungle"])]
    ["All", "Attack", "Defence", "Move", "Jungle"] rfl rfl (List.cons_ne_nil _ _)
  refine ⟨frames, solves, inGrid, ?_⟩
  rw [inGrid.height]
  norm_num [gridHeight, rows, itemHeight, buttonInterSpace, vSpaceToExtendView]

end CultivationMotain.LBSelector

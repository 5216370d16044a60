import CultivationMotain.CoreTextMagazine.PaginationEnds
import Mathlib.Data.Rat.Floor
import Mathlib.Tactic.Linarith
import Mathlib.Tactic.Ring

set_option autoImplicit false

namespace CultivationMotain.CoreTextMagazine

open Foundation

variable {Color Font Picture : Type} (coreText : CoreText Color Font Picture)

def columnsOf (screen : Screen) : Nat := if screen.phone then 1 else 2

-- The settings of a screen for any number of columns.
def settingsFor (screen : Screen) (columnsPerPage : CGFloat) : CTSettings :=
  let margin : CGFloat := 20
  let pageRect := screen.bounds.insetBy margin margin
  ⟨margin, columnsPerPage, pageRect,
    (CGRect.mk 0 0 (pageRect.width / columnsPerPage) pageRect.height).insetBy margin margin⟩

def layOut (settings : CTSettings) (bounds : CGRect) (attribu : List (Run Color Font)) (images : List ImageRecord) :
    Option (CTView Picture) :=
  (buildColumns coreText settings bounds attribu images (attributedLength attribu) firstBuild).map fun build =>
    ⟨build.pages, ⟨build.pageIndex * bounds.width, bounds.height⟩⟩

theorem buid_frames_laid_out (bounds : CGRect) (attribu : List (Run Color Font)) (images : List ImageRecord) :
    buidFrames coreText bounds attribu images =
      layOut coreText (settingsFor coreText.screen (columnsOf coreText.screen)) bounds attribu images := by
  have columns : ((columnsOf coreText.screen : Nat) : CGFloat) = if coreText.screen.phone then 1 else 2 := by
    unfold columnsOf
    exact Nat.cast_ite (coreText.screen.phone = true) 1 2
  rw [columns]
  rfl

-- Every column that is begun before the end of the text shows some of it, from
-- its place on.
def Places (settings : CTSettings) (attribu : List (Run Color Font)) : Prop :=
  ∀ position, position < attributedLength attribu →
    (columnFrom coreText settings attribu position).location = position ∧
      0 < (columnFrom coreText settings attribu position).length ∧
      position + (columnFrom coreText settings attribu position).length ≤ attributedLength attribu

section Geometry

def Within (frame page : CGRect) : Prop :=
  0 ≤ frame.x ∧ frame.x + frame.width ≤ page.width ∧ 0 ≤ frame.y ∧ frame.y + frame.height ≤ page.height

def Touches (rect : CGRect) (x y : CGFloat) : Prop :=
  rect.x ≤ x ∧ x ≤ rect.x + rect.width ∧ rect.y ≤ y ∧ y ≤ rect.y + rect.height

def Separate (first second : CGRect) : Prop := ∀ x y, ¬ (Touches first x y ∧ Touches second x y)

-- Ranges that follow each other from one place to another, none of them empty.
def Follow : Nat → List CFRange → Nat → Prop
  | start, [], finish => start = finish
  | start, range :: ranges, finish =>
      range.location = start ∧ 0 < range.length ∧ Follow (start + range.length) ranges finish

def shownRanges (columns : List (CTColumnView Picture)) : List CFRange :=
  columns.map fun column => column.ctframe.visibleStringRange

structure WellLaidOut (settings : CTSettings) (columnsPerPage : Nat) (bounds : CGRect)
    (attribu : List (Run Color Font)) (view : CTView Picture) : Prop where
  page : ∀ index column, view.columns[index]? = some column →
    ∃ page, view.pages[index / columnsPerPage]? = some page ∧ page.columns[index % columnsPerPage]? = some column
  nonempty : ∀ page ∈ view.pages, page.columns ≠ []
  frame : ∀ (index : Nat) page, view.pages[index]? = some page →
    page.frame = settings.pageRect.offsetBy (index * bounds.width) 0
  within : ∀ page ∈ view.pages, ∀ column ∈ page.columns, Within column.frame page.frame
  separate : ∀ page ∈ view.pages, (page.columns.map CTColumnView.frame).Pairwise Separate
  partition : Follow 0 (shownRanges view.columns) (attributedLength attribu)
  width : view.contentSize.width = view.pages.length * bounds.width

end Geometry

section Invariant

structure Framed (settings : CTSettings) (columnsPerPage : Nat) (bounds : CGRect) (pages : List (PageView Picture)) :
    Prop where
  page : ∀ (index : Nat) page, pages[index]? = some page →
    page.frame = settings.pageRect.offsetBy (index * bounds.width) 0
  column : ∀ page ∈ pages, ∀ (place : Nat) column, page.columns[place]? = some column →
    column.frame = settings.columnRect.offsetBy (place * (settings.pageRect.width / columnsPerPage)) 0

-- The page being filled is the last one; columIndex counts its columns.
structure Filling (columnsPerPage : Nat) (build : Build Picture) (front : List (PageView Picture))
    (page : PageView Picture) : Prop where
  pages : build.pages = front ++ [page]
  full : ∀ other ∈ front, other.columns.length = columnsPerPage
  index : build.columIndex = page.columns.length

-- Before each turn of the loop.
structure Laid (settings : CTSettings) (columnsPerPage : Nat) (bounds : CGRect) (build : Build Picture) : Prop where
  counted : build.pageIndex = build.pages.length
  framed : Framed settings columnsPerPage bounds build.pages
  filled : (build.pages = [] ∧ build.columIndex = 0) ∨ ∃ front page, Filling columnsPerPage build front page ∧
    page.columns ≠ [] ∧ page.columns.length ≤ columnsPerPage

theorem truncating_remainder_nat (index count : Nat) :
    truncatingRemainder (index : CGFloat) (count : CGFloat) = ((index % count : Nat) : CGFloat) := by
  have quotient : ((index : CGFloat) / count).num.tdiv ((index : CGFloat) / count).den =
      ((index / count : Nat) : Int) := by
    rw [Int.tdiv_eq_ediv_of_nonneg (Rat.num_nonneg.mpr (by positivity)), ← Rat.floor_def',
      Rat.floor_natCast_div_natCast]
    rfl
  have parts : (index : CGFloat) = count * ((index / count : Nat) : CGFloat) + ((index % count : Nat) : CGFloat) := by
    exact_mod_cast (Nat.div_add_mod index count).symm
  unfold truncatingRemainder
  rw [quotient, Int.cast_natCast]
  linarith

theorem build_column_adds (settings : CTSettings) (bounds : CGRect) (attribu : List (Run Color Font))
    (images : List ImageRecord) (build started : Build Picture) (start : startPage settings bounds build = started) :
    ∃ column imageIndex,
      column.frame =
        settings.columnRect.offsetBy (started.columIndex * (pageWidth started.pages / settings.columnsPerPage)) 0 ∧
      column.ctframe.visibleStringRange = columnFrom coreText settings attribu build.textPos ∧
      buildColumn coreText settings bounds attribu images build =
        ⟨imageIndex, build.textPos + (columnFrom coreText settings attribu build.textPos).length,
          started.columIndex + 1, started.pageIndex, addColumn started.pages column⟩ := by
  have place := start_page_position settings bounds build
  rw [start] at place
  rw [← place, buildColumn, start]
  exact ⟨⟨_, coreText.createFrame attribu ⟨started.textPos, 0⟩ (columnPath settings), _⟩, _, rfl, rfl, rfl⟩

theorem add_column_concat (front : List (PageView Picture)) (page : PageView Picture) (column : CTColumnView Picture) :
    addColumn (front ++ [page]) column = front ++ [{ page with columns := page.columns ++ [column] }] := by
  simp only [addColumn, List.getLast?_concat, List.dropLast_concat]

theorem page_width_concat (front : List (PageView Picture)) (page : PageView Picture) :
    pageWidth (front ++ [page]) = page.frame.width := by
  simp only [pageWidth, List.getLast?_concat]

theorem framed_concat (settings : CTSettings) (columnsPerPage : Nat) (bounds : CGRect)
    (front : List (PageView Picture)) (page : PageView Picture) :
    Framed settings columnsPerPage bounds (front ++ [page]) ↔
      Framed settings columnsPerPage bounds front ∧
        page.frame = settings.pageRect.offsetBy (front.length * bounds.width) 0 ∧
        ∀ (place : Nat) column, page.columns[place]? = some column →
          column.frame = settings.columnRect.offsetBy (place * (settings.pageRect.width / columnsPerPage)) 0 := by
  constructor
  · intro framed
    refine ⟨⟨fun index other found => ?_, fun other member => ?_⟩, ?_, ?_⟩
    · exact framed.page index other
        ((List.getElem?_append_left (List.getElem?_eq_some_iff.mp found).1).trans found)
    · exact framed.column other (List.mem_append_left _ member)
    · exact framed.page front.length page List.getElem?_concat_length
    · exact framed.column page (List.mem_append_right _ List.mem_cons_self)
  · rintro ⟨framed, frame, columns⟩
    refine ⟨fun index other found => ?_, fun other member => ?_⟩
    · by_cases inside : index < front.length
      · exact framed.page index other ((List.getElem?_append_left inside).symm.trans found)
      · have bound := (List.getElem?_eq_some_iff.mp found).1
        rw [List.length_append, List.length_singleton] at bound
        obtain rfl : index = front.length := by omega
        rw [List.getElem?_concat_length] at found
        exact Option.some.inj found ▸ frame
    · rcases List.mem_append.mp member with old | new
      · exact framed.column other old
      · exact List.mem_singleton.mp new ▸ columns

-- Once the turn has its page.
structure Started (settings : CTSettings) (columnsPerPage : Nat) (bounds : CGRect) (build : Build Picture)
    (front : List (PageView Picture)) (page : PageView Picture) : Prop where
  filling : Filling columnsPerPage (startPage settings bounds build) front page
  room : page.columns.length < columnsPerPage
  numbered : (startPage settings bounds build).pageIndex = front.length + 1
  framed : Framed settings columnsPerPage bounds (front ++ [page])
  shown : (front ++ [page]).flatMap PageView.columns = build.pages.flatMap PageView.columns

theorem fresh_page_started (settings : CTSettings) (columnsPerPage : Nat) (bounds : CGRect) (build : Build Picture)
    (positive : 0 < columnsPerPage) (laid : Laid settings columnsPerPage bounds build)
    (done : truncatingRemainder build.columIndex settings.columnsPerPage = 0)
    (full : ∀ other ∈ build.pages, other.columns.length = columnsPerPage) :
    ∃ front page, Started settings columnsPerPage bounds build front page := by
  refine ⟨build.pages, ⟨settings.pageRect.offsetBy (build.pageIndex * bounds.width) 0, []⟩, ?_, positive, ?_, ?_, ?_⟩
  · rw [startPage, if_pos done]
    exact ⟨rfl, full, rfl⟩
  · rw [startPage, if_pos done, laid.counted]
  · exact (framed_concat _ _ _ _ _).mpr ⟨laid.framed, by rw [laid.counted], nofun⟩
  · rw [List.flatMap_append, List.flatMap_singleton, List.append_nil]

theorem start_page_filling (screen : Screen) (columnsPerPage : Nat) (bounds : CGRect) (build : Build Picture)
    (positive : 0 < columnsPerPage) (laid : Laid (settingsFor screen columnsPerPage) columnsPerPage bounds build) :
    ∃ front page, Started (settingsFor screen columnsPerPage) columnsPerPage bounds build front page := by
  rcases laid.filled with ⟨none_yet, zero⟩ | ⟨front, page, filling, some_column, bounded⟩
  · refine fresh_page_started _ columnsPerPage bounds build positive laid ?_ ?_
    · have first := truncating_remainder_nat 0 columnsPerPage
      rw [Nat.zero_mod] at first
      rw [zero]
      exact first
    · rw [none_yet]
      exact nofun
  · have remainder := truncating_remainder_nat page.columns.length columnsPerPage
    rw [← filling.index] at remainder
    by_cases complete : page.columns.length = columnsPerPage
    · refine fresh_page_started _ columnsPerPage bounds build positive laid ?_ ?_
      · rw [complete, Nat.mod_self] at remainder
        exact remainder
      · rw [filling.pages]
        intro other member
        rcases List.mem_append.mp member with old | new
        · exact filling.full other old
        · exact List.mem_singleton.mp new ▸ complete
    · have room : page.columns.length < columnsPerPage := Nat.lt_of_le_of_ne bounded complete
      have going : ¬ truncatingRemainder build.columIndex (settingsFor screen columnsPerPage).columnsPerPage = 0 := by
        intro done
        rw [Nat.mod_eq_of_lt room] at remainder
        have counted : ((page.columns.length : Nat) : CGFloat) = 0 := remainder.symm.trans done
        exact some_column (List.length_eq_zero_iff.mp (by exact_mod_cast counted))
      refine ⟨front, page, ?_, room, ?_, ?_, ?_⟩
      · rw [startPage, if_neg going]
        exact filling
      · rw [startPage, if_neg going, laid.counted, filling.pages, List.length_append]
        exact Nat.cast_succ _
      · rw [← filling.pages]
        exact laid.framed
      · rw [filling.pages]

theorem build_column_laid (columnsPerPage : Nat) (bounds : CGRect) (attribu : List (Run Color Font))
    (images : List ImageRecord) (build : Build Picture) (positive : 0 < columnsPerPage)
    (laid : Laid (settingsFor coreText.screen columnsPerPage) columnsPerPage bounds build) :
    Laid (settingsFor coreText.screen columnsPerPage) columnsPerPage bounds
        (buildColumn coreText (settingsFor coreText.screen columnsPerPage) bounds attribu images build) ∧
      ∃ column,
        (buildColumn coreText (settingsFor coreText.screen columnsPerPage) bounds attribu images build).pages.flatMap
          PageView.columns = build.pages.flatMap PageView.columns ++ [column] ∧
        column.ctframe.visibleStringRange =
          columnFrom coreText (settingsFor coreText.screen columnsPerPage) attribu build.textPos := by
  obtain ⟨front, page, ⟨filling, room, numbered, framed, shown⟩⟩ :=
    start_page_filling coreText.screen columnsPerPage bounds build positive laid
  obtain ⟨column, imageIndex, frame, range, built⟩ :=
    build_column_adds coreText (settingsFor coreText.screen columnsPerPage) bounds attribu images build _ rfl
  rw [filling.pages, page_width_concat, filling.index] at frame
  rw [filling.pages, add_column_concat] at built
  obtain ⟨fronts, page_frame, columns⟩ := (framed_concat _ _ _ _ _).mp framed
  rw [page_frame] at frame
  rw [built]
  refine ⟨⟨?_, ?_, .inr ⟨front, { page with columns := page.columns ++ [column] }, ⟨rfl, filling.full, ?_⟩, ?_, ?_⟩⟩,
    column, ?_, range⟩
  · rw [numbered, List.length_append]
    exact (Nat.cast_succ _).symm
  · refine (framed_concat _ _ _ _ _).mpr ⟨fronts, page_frame, fun place other found => ?_⟩
    by_cases inside : place < page.columns.length
    · exact columns place other ((List.getElem?_append_left inside).symm.trans found)
    · have bound := (List.getElem?_eq_some_iff.mp found).1
      rw [List.length_append, List.length_singleton] at bound
      obtain rfl : place = page.columns.length := by omega
      rw [List.getElem?_concat_length] at found
      exact Option.some.inj found ▸ frame
  · rw [filling.index, List.length_append]
    exact (Nat.cast_succ _).symm
  · exact List.append_ne_nil_of_right_ne_nil _ (List.cons_ne_nil _ _)
  · rw [List.length_append, List.length_singleton]
    exact room
  · rw [List.flatMap_append, List.flatMap_singleton] at shown ⊢
    rw [← shown, List.append_assoc]

theorem follow_append (start middle : Nat) (ranges : List CFRange) (range : CFRange)
    (before : Follow start ranges middle) (location : range.location = middle) (some_text : 0 < range.length) :
    Follow start (ranges ++ [range]) (middle + range.length) := by
  induction ranges generalizing start with
  | nil =>
      obtain rfl : start = middle := before
      exact ⟨location, some_text, rfl⟩
  | cons first ranges ih => exact ⟨before.1, before.2.1, ih _ before.2.2⟩

-- From any turn on, with the text before it shown.
theorem build_columns_laid (columnsPerPage : Nat) (bounds : CGRect) (attribu : List (Run Color Font))
    (images : List ImageRecord) (positive : 0 < columnsPerPage)
    (places : Places coreText (settingsFor coreText.screen columnsPerPage) attribu) (turns : Nat)
    (build : Build Picture) (laid : Laid (settingsFor coreText.screen columnsPerPage) columnsPerPage bounds build)
    (shown : Follow 0 (shownRanges (build.pages.flatMap PageView.columns)) build.textPos)
    (inside : build.textPos ≤ attributedLength attribu) (enough : attributedLength attribu ≤ build.textPos + turns) :
    ∃ last, buildColumns coreText (settingsFor coreText.screen columnsPerPage) bounds attribu images turns build =
        some last ∧
      Laid (settingsFor coreText.screen columnsPerPage) columnsPerPage bounds last ∧
      Follow 0 (shownRanges (last.pages.flatMap PageView.columns)) (attributedLength attribu) := by
  induction turns generalizing build with
  | zero =>
      have ended : build.textPos = attributedLength attribu := Nat.le_antisymm inside enough
      rw [buildColumns, if_neg (by omega)]
      exact ⟨build, rfl, laid, ended ▸ shown⟩
  | succ turns ih =>
      by_cases before : build.textPos < attributedLength attribu
      · obtain ⟨location, forward, fits⟩ := places build.textPos before
        obtain ⟨next, column, columns, range⟩ :=
          build_column_laid coreText columnsPerPage bounds attribu images build positive laid
        have position := build_column_position coreText (settingsFor coreText.screen columnsPerPage) bounds attribu
          images build
        rw [buildColumns, if_pos before]
        refine ih _ next ?_ ?_ ?_
        · rw [columns, position, shownRanges, List.map_append]
          rw [← range] at location forward ⊢
          exact follow_append 0 build.textPos _ _ shown location forward
        · rw [position]
          exact fits
        · rw [position]
          omega
      · have ended : build.textPos = attributedLength attribu := Nat.le_antisymm inside (Nat.le_of_not_lt before)
        rw [buildColumns, if_neg before]
        exact ⟨build, rfl, laid, ended ▸ shown⟩

theorem column_place (columnsPerPage : Nat) (positive : 0 < columnsPerPage) (front : List (PageView Picture))
    (page : PageView Picture) (full : ∀ other ∈ front, other.columns.length = columnsPerPage)
    (bounded : page.columns.length ≤ columnsPerPage) (index : Nat) (column : CTColumnView Picture)
    (found : ((front ++ [page]).flatMap PageView.columns)[index]? = some column) :
    ∃ shown, (front ++ [page])[index / columnsPerPage]? = some shown ∧
      shown.columns[index % columnsPerPage]? = some column := by
  induction front generalizing index with
  | nil =>
      rw [List.nil_append, List.flatMap_singleton] at found
      have inside := (List.getElem?_eq_some_iff.mp found).1
      rw [Nat.div_eq_of_lt (by omega), Nat.mod_eq_of_lt (by omega)]
      exact ⟨page, rfl, found⟩
  | cons first front ih =>
      have length := full first List.mem_cons_self
      rw [List.cons_append, List.flatMap_cons] at found
      by_cases here : index < columnsPerPage
      · rw [Nat.div_eq_of_lt here, Nat.mod_eq_of_lt here]
        rw [List.getElem?_append_left (by omega)] at found
        exact ⟨first, rfl, found⟩
      · rw [List.getElem?_append_right (by omega), length] at found
        obtain ⟨shown, at_page, at_place⟩ :=
          ih (fun other member => full other (List.mem_cons_of_mem _ member)) _ found
        have later : index = (index - columnsPerPage) + columnsPerPage := by omega
        rw [later, Nat.add_div_right _ positive, Nat.add_mod_right]
        exact ⟨shown, at_page, at_place⟩

end Invariant

section Columns

theorem column_rect_inset (screen : Screen) (columnsPerPage : Nat)
    (wide : 0 < (settingsFor screen columnsPerPage).columnRect.width) :
    (settingsFor screen columnsPerPage).columnRect =
      ⟨20, 20, (settingsFor screen columnsPerPage).pageRect.width / columnsPerPage - 40,
        (settingsFor screen columnsPerPage).pageRect.height - 40⟩ := by
  obtain ⟨width, height⟩ := inset_by_nonneg screen.bounds 20 20
  have share : 0 ≤ (screen.bounds.insetBy 20 20).width / columnsPerPage := div_nonneg width (Nat.cast_nonneg _)
  have standard := standardize_nonneg
    ⟨0, 0, (screen.bounds.insetBy 20 20).width / columnsPerPage, (screen.bounds.insetBy 20 20).height⟩ share height
  simp only [settingsFor] at wide ⊢
  rw [CGRect.insetBy, CGRectInset, standard] at wide ⊢
  dsimp only at wide ⊢
  split_ifs at wide ⊢
  · exact absurd wide (lt_irrefl 0)
  · norm_num

theorem column_within (screen : Screen) (columnsPerPage place : Nat) (inside : place < columnsPerPage)
    (wide : 0 < (settingsFor screen columnsPerPage).columnRect.width) (page : CGRect)
    (width : page.width = (settingsFor screen columnsPerPage).pageRect.width)
    (height : page.height = (settingsFor screen columnsPerPage).pageRect.height) :
    Within ((settingsFor screen columnsPerPage).columnRect.offsetBy
      (place * ((settingsFor screen columnsPerPage).pageRect.width / columnsPerPage)) 0) page := by
  have rect := column_rect_inset screen columnsPerPage wide
  have room := wide
  rw [rect] at room ⊢
  have count : (0 : CGFloat) < columnsPerPage := by exact_mod_cast Nat.zero_lt_of_lt inside
  have steps : (place : CGFloat) + 1 ≤ columnsPerPage := by exact_mod_cast inside
  have left : (0 : CGFloat) ≤ place := Nat.cast_nonneg place
  have total : columnsPerPage * ((settingsFor screen columnsPerPage).pageRect.width / columnsPerPage) =
      (settingsFor screen columnsPerPage).pageRect.width := mul_div_cancel₀ _ count.ne'
  generalize (settingsFor screen columnsPerPage).pageRect.width / columnsPerPage = column at room total ⊢
  dsimp only at room
  have share : (0 : CGFloat) < column := by linarith
  have reach := mul_le_mul_of_nonneg_right steps share.le
  refine ⟨?_, ?_, ?_, ?_⟩ <;> simp only [CGRect.offsetBy]
  · positivity
  · rw [width]
    linarith
  · norm_num
  · rw [height]
    linarith

theorem columns_separate (screen : Screen) (columnsPerPage first second : Nat) (before : first < second)
    (wide : 0 < (settingsFor screen columnsPerPage).columnRect.width) :
    Separate
      ((settingsFor screen columnsPerPage).columnRect.offsetBy
        (first * ((settingsFor screen columnsPerPage).pageRect.width / columnsPerPage)) 0)
      ((settingsFor screen columnsPerPage).columnRect.offsetBy
        (second * ((settingsFor screen columnsPerPage).pageRect.width / columnsPerPage)) 0) := by
  rintro x y ⟨⟨_, right, _, _⟩, left, _, _, _⟩
  have room := wide
  rw [column_rect_inset screen columnsPerPage wide] at room right left
  simp only [CGRect.offsetBy] at room right left
  have steps : (first : CGFloat) + 1 ≤ second := by exact_mod_cast before
  generalize (settingsFor screen columnsPerPage).pageRect.width / columnsPerPage = column at room right left
  have share : (0 : CGFloat) < column := by linarith
  have reach := mul_le_mul_of_nonneg_right steps share.le
  linarith

theorem framed_columns (screen : Screen) (columnsPerPage : Nat) (bounds : CGRect) (pages : List (PageView Picture))
    (framed : Framed (settingsFor screen columnsPerPage) columnsPerPage bounds pages)
    (wide : 0 < (settingsFor screen columnsPerPage).columnRect.width)
    (bounded : ∀ page ∈ pages, page.columns.length ≤ columnsPerPage) (page : PageView Picture) (member : page ∈ pages) :
    (∀ column ∈ page.columns, Within column.frame page.frame) ∧
      (page.columns.map CTColumnView.frame).Pairwise Separate := by
  obtain ⟨index, found⟩ := List.mem_iff_getElem?.mp member
  have frame := framed.page index page found
  constructor
  · intro column shown
    obtain ⟨place, column_found⟩ := List.mem_iff_getElem?.mp shown
    have inside := (List.getElem?_eq_some_iff.mp column_found).1
    rw [framed.column page member place column column_found, frame]
    exact column_within screen columnsPerPage place (Nat.lt_of_lt_of_le inside (bounded page member)) wide _ rfl rfl
  · rw [List.pairwise_map, List.pairwise_iff_getElem]
    intro first second first_inside second_inside before
    rw [framed.column page member first _ (List.getElem?_eq_getElem first_inside),
      framed.column page member second _ (List.getElem?_eq_getElem second_inside)]
    exact columns_separate screen columnsPerPage first second before wide

end Columns

theorem laid_pages (columnsPerPage : Nat) (settings : CTSettings) (bounds : CGRect) (build : Build Picture)
    (positive : 0 < columnsPerPage) (laid : Laid settings columnsPerPage bounds build) :
    (∀ page ∈ build.pages, page.columns ≠ [] ∧ page.columns.length ≤ columnsPerPage) ∧
      ∀ index column, (build.pages.flatMap PageView.columns)[index]? = some column →
        ∃ page, build.pages[index / columnsPerPage]? = some page ∧
          page.columns[index % columnsPerPage]? = some column := by
  rcases laid.filled with ⟨none_yet, _⟩ | ⟨front, page, filling, some_column, bounded⟩
  · rw [none_yet]
    exact ⟨nofun, nofun⟩
  · rw [filling.pages]
    refine ⟨fun other member => ?_, column_place columnsPerPage positive front page filling.full bounded⟩
    rcases List.mem_append.mp member with old | new
    · have length := filling.full other old
      exact ⟨List.ne_nil_of_length_pos (by omega), length.le⟩
    · exact List.mem_singleton.mp new ▸ ⟨some_column, bounded⟩

theorem page_geometry (columnsPerPage : Nat) (bounds : CGRect) (attribu : List (Run Color Font))
    (images : List ImageRecord) (positive : 1 ≤ columnsPerPage)
    (wide : 0 < (settingsFor coreText.screen columnsPerPage).columnRect.width)
    (places : Places coreText (settingsFor coreText.screen columnsPerPage) attribu) :
    ∃ view, layOut coreText (settingsFor coreText.screen columnsPerPage) bounds attribu images = some view ∧
      WellLaidOut (settingsFor coreText.screen columnsPerPage) columnsPerPage bounds attribu view ∧
      (columnsPerPage = columnsOf coreText.screen → buidFrames coreText bounds attribu images = some view) := by
  have first : Laid (settingsFor coreText.screen columnsPerPage) columnsPerPage bounds
      (firstBuild : Build Picture) := ⟨rfl, ⟨nofun, nofun⟩, .inl ⟨rfl, rfl⟩⟩
  obtain ⟨last, ended, laid, shown⟩ :=
    build_columns_laid coreText columnsPerPage bounds attribu images positive places (attributedLength attribu)
      firstBuild first rfl (Nat.zero_le _) (Nat.le_add_left _ _)
  obtain ⟨pages, placed⟩ := laid_pages columnsPerPage _ bounds last positive laid
  have columns := framed_columns coreText.screen columnsPerPage bounds last.pages laid.framed wide
    (fun page member => (pages page member).2)
  have laid_out : layOut coreText (settingsFor coreText.screen columnsPerPage) bounds attribu images =
      some ⟨last.pages, ⟨last.pageIndex * bounds.width, bounds.height⟩⟩ := by
    rw [layOut, ended]
    rfl
  refine ⟨_, laid_out, ?_, fun own => ?_⟩
  · exact
      { page := placed
        nonempty := fun page member => (pages page member).1
        frame := laid.framed.page
        within := fun page member => (columns page member).1
        separate := fun page member => (columns page member).2
        partition := shown
        width := by rw [laid.counted] }
  · rw [buid_frames_laid_out, ← own]
    exact laid_out

-- A framesetter that puts one unit into each column.
def oneUnitEach : CoreText Unit Unit Unit where
  createFrame _ range _ := ⟨[], ⟨range.location, 1⟩⟩
  imageNamed _ := none
  screen := ⟨⟨0, 0, 400, 300⟩, false⟩

theorem page_geometry_three_letters :
    ∃ view, layOut oneUnitEach (settingsFor oneUnitEach.screen (2 : Nat)) ⟨0, 0, 400, 300⟩
        [⟨['a', 'b', 'c'], .text () ()⟩] [] = some view ∧
      WellLaidOut (settingsFor oneUnitEach.screen (2 : Nat)) 2 ⟨0, 0, 400, 300⟩ [⟨['a', 'b', 'c'], .text () ()⟩] view ∧
      (2 = columnsOf oneUnitEach.screen →
        buidFrames oneUnitEach ⟨0, 0, 400, 300⟩ [⟨['a', 'b', 'c'], .text () ()⟩] [] = some view) :=
  page_geometry oneUnitEach 2 ⟨0, 0, 400, 300⟩ [⟨['a', 'b', 'c'], .text () ()⟩] [] (by decide) (by decide +kernel)
    fun _ before => ⟨rfl, Nat.one_pos, before⟩

end CultivationMotain.CoreTextMagazine

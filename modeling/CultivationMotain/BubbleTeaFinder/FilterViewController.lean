import CultivationMotain.Foundation.IndexPath
import CultivationMotain.Library.Runs

set_option autoImplicit false

namespace CultivationMotain.BubbleTeaFinder.Filter

open Foundation Runs

structure NSPredicate where
  format : String
  argument : Option String
deriving DecidableEq, Repr

structure NSSortDescriptor where
  key : String
  ascending : Bool
  selector : Option String
deriving DecidableEq, Repr

def NSSortDescriptor.reversedSortDescriptor (descriptor : NSSortDescriptor) : NSSortDescriptor :=
  { descriptor with ascending := !descriptor.ascending }

inductive AccessoryType where
  | none
  | checkmark
deriving DecidableEq, Repr

inductive Cell where
  | cheapVenueCell
  | moderateVenueCell
  | expensiveVenueCell
  | offeringDealCell
  | walkingDistanceCell
  | userTipsCell
  | nameAZSortCell
  | nameZASortCell
  | distanceSortCell
  | priceSortCell
deriving DecidableEq, Repr

-- The sections of the static table.
def sections : List (List Cell) :=
  [[.cheapVenueCell, .moderateVenueCell, .expensiveVenueCell],
    [.offeringDealCell, .walkingDistanceCell, .userTipsCell],
    [.nameAZSortCell, .nameZASortCell, .distanceSortCell, .priceSortCell]]

def cheapVenuePredicate : NSPredicate := ⟨"priceInfo.priceCategory == %@", some "$"⟩

def moderateVenuePredicate : NSPredicate := ⟨"priceInfo.priceCategory == %@", some "$$"⟩

def expensiveVenuePredicate : NSPredicate := ⟨"priceInfo.priceCategory == %@", some "$$$"⟩

def offeringDealPredicate : NSPredicate := ⟨"specialCount > 0", none⟩

def walkingDistancePredicate : NSPredicate := ⟨"location.distance < 500", none⟩

def hasUserTipsPredicate : NSPredicate := ⟨"stats.tipCount > 0", none⟩

def nameSortDescriptor : NSSortDescriptor := ⟨"name", true, some "localizedStandardCompare:"⟩

def distanceSortDescriptor : NSSortDescriptor := ⟨"location.distance", true, none⟩

def priceSortDescriptor : NSSortDescriptor := ⟨"priceInfo.priceCategory", true, none⟩

-- tapped is a ghost, the cells tapped so far.
structure FilterViewController where
  selectedSortDescriptor : Option NSSortDescriptor
  selectedPredicate : Option NSPredicate
  accessoryType : Cell → AccessoryType
  tapped : List Cell

def select (controller : FilterViewController) : Cell → FilterViewController
  | .cheapVenueCell => { controller with selectedPredicate := some cheapVenuePredicate }
  | .moderateVenueCell => { controller with selectedPredicate := some moderateVenuePredicate }
  | .expensiveVenueCell => { controller with selectedPredicate := some expensiveVenuePredicate }
  | .offeringDealCell => { controller with selectedPredicate := some offeringDealPredicate }
  | .walkingDistanceCell => { controller with selectedPredicate := some walkingDistancePredicate }
  | .userTipsCell => { controller with selectedPredicate := some hasUserTipsPredicate }
  | .nameAZSortCell => { controller with selectedSortDescriptor := some nameSortDescriptor }
  | .nameZASortCell => { controller with selectedSortDescriptor := some nameSortDescriptor.reversedSortDescriptor }
  | .distanceSortCell => { controller with selectedSortDescriptor := some distanceSortDescriptor }
  | .priceSortCell => { controller with selectedSortDescriptor := some priceSortDescriptor }

def didSelectRow (controller : FilterViewController) (cell : Cell) : FilterViewController :=
  let selected := select controller cell
  { selected with
    accessoryType := fun other => if other = cell then .checkmark else selected.accessoryType other
    tapped := selected.tapped ++ [cell] }

-- What the delegate is sent.
def saveButtonTapped (controller : FilterViewController) : Option NSPredicate × Option NSSortDescriptor :=
  (controller.selectedPredicate, controller.selectedSortDescriptor)

def cellForRow (indexPath : IndexPath) : Option Cell := elementAt sections indexPath

def step (controller : FilterViewController) (indexPath : IndexPath) : Option FilterViewController :=
  (cellForRow indexPath).map (didSelectRow controller)

def firstScreen : FilterViewController := ⟨none, none, fun _ => .none, []⟩

def Cell.predicate (cell : Cell) : Option NSPredicate := (select firstScreen cell).selectedPredicate

def Cell.sortDescriptor (cell : Cell) : Option NSSortDescriptor := (select firstScreen cell).selectedSortDescriptor

-- The cell of the predicate, or of the sort descriptor, that would be sent.
def IsSelected (controller : FilterViewController) (cell : Cell) : Prop :=
  (∃ predicate, cell.predicate = some predicate ∧ (saveButtonTapped controller).1 = some predicate) ∨
    ∃ descriptor, cell.sortDescriptor = some descriptor ∧ (saveButtonTapped controller).2 = some descriptor

def CheckmarksAgree (controller : FilterViewController) : Prop :=
  ∀ cell, controller.accessoryType cell = .checkmark ↔ IsSelected controller cell

def Cell.filters (cell : Cell) : Bool := cell.predicate.isSome

-- No other cell of the tapped cell's kind, filter or sort, was tapped before.
def FirstChoice (before : FilterViewController) (indexPath : IndexPath) (_ : FilterViewController) : Prop :=
  ∀ cell, cellForRow indexPath = some cell →
    ∀ other ∈ before.tapped, other.filters = cell.filters → other = cell

structure Marked (controller : FilterViewController) : Prop where
  agree : CheckmarksAgree controller
  marks : ∀ cell, controller.accessoryType cell = .checkmark ↔ cell ∈ controller.tapped

theorem select_predicate (controller : FilterViewController) (cell : Cell) :
    (select controller cell).selectedPredicate = cell.predicate.or controller.selectedPredicate := by
  cases cell <;> rfl

theorem select_sort (controller : FilterViewController) (cell : Cell) :
    (select controller cell).selectedSortDescriptor =
      cell.sortDescriptor.or controller.selectedSortDescriptor := by
  cases cell <;> rfl

theorem select_accessory (controller : FilterViewController) (cell : Cell) :
    (select controller cell).accessoryType = controller.accessoryType := by
  cases cell <;> rfl

theorem select_tapped (controller : FilterViewController) (cell : Cell) :
    (select controller cell).tapped = controller.tapped := by
  cases cell <;> rfl

theorem row_tapped (controller : FilterViewController) (cell : Cell) :
    (didSelectRow controller cell).tapped = controller.tapped ++ [cell] := by
  rw [didSelectRow, select_tapped]

-- A cell chooses a predicate or a sort descriptor, never both.
theorem cell_kinds (cell : Cell) :
    (∃ predicate, cell.predicate = some predicate ∧ cell.sortDescriptor = none ∧ cell.filters = true) ∨
      ∃ descriptor, cell.predicate = none ∧ cell.sortDescriptor = some descriptor ∧ cell.filters = false := by
  cases cell <;> simp [Cell.filters, Cell.predicate, Cell.sortDescriptor, select, firstScreen]

theorem find_predicate (cell : Cell) (predicate : NSPredicate) (here : cell.predicate = some predicate) :
    sections.flatten.find? (fun other => other.predicate = some predicate) = some cell := by
  cases cell <;> cases here <;> rfl

theorem find_sort (cell : Cell) (descriptor : NSSortDescriptor) (here : cell.sortDescriptor = some descriptor) :
    sections.flatten.find? (fun other => other.sortDescriptor = some descriptor) = some cell := by
  cases cell <;> cases here <;> rfl

-- A choice belongs to one cell.
theorem predicate_cell (one other : Cell) (predicate : NSPredicate) (here : one.predicate = some predicate)
    (there : other.predicate = some predicate) : one = other :=
  Option.some.inj ((find_predicate one predicate here).symm.trans (find_predicate other predicate there))

theorem sort_cell (one other : Cell) (descriptor : NSSortDescriptor) (here : one.sortDescriptor = some descriptor)
    (there : other.sortDescriptor = some descriptor) : one = other :=
  Option.some.inj ((find_sort one descriptor here).symm.trans (find_sort other descriptor there))

theorem predicate_same_iff (one other : Cell) (predicate : NSPredicate) (here : one.predicate = some predicate) :
    other.predicate = some predicate ↔ other = one :=
  ⟨fun there => predicate_cell other one predicate there here, fun same => same ▸ here⟩

theorem sort_same_iff (one other : Cell) (descriptor : NSSortDescriptor)
    (here : one.sortDescriptor = some descriptor) : other.sortDescriptor = some descriptor ↔ other = one :=
  ⟨fun there => sort_cell other one descriptor there here, fun same => same ▸ here⟩

theorem selected_after_tap (controller : FilterViewController) (cell other : Cell) :
    IsSelected (didSelectRow controller cell) other ↔
      if other.filters = cell.filters then other = cell else IsSelected controller other := by
  have predicate : (saveButtonTapped (didSelectRow controller cell)).1 =
      cell.predicate.or controller.selectedPredicate := select_predicate controller cell
  have descriptor : (saveButtonTapped (didSelectRow controller cell)).2 =
      cell.sortDescriptor.or controller.selectedSortDescriptor := select_sort controller cell
  unfold IsSelected
  rw [predicate, descriptor]
  rcases cell_kinds cell with ⟨chosen, filter, noSort, kind⟩ | ⟨chosen, noFilter, sort, kind⟩
  · have same := predicate_same_iff cell other chosen filter
    rcases cell_kinds other with ⟨own, filter', noSort', kind'⟩ | ⟨own, noFilter', sort', kind'⟩
    · rw [filter'] at same
      simp [filter, noSort, kind, filter', noSort', kind', ← same, eq_comm]
    · simp [filter, noSort, kind, noFilter', sort', kind', saveButtonTapped]
  · have same := sort_same_iff cell other chosen sort
    rcases cell_kinds other with ⟨own, filter', noSort', kind'⟩ | ⟨own, noFilter', sort', kind'⟩
    · simp [noFilter, sort, kind, filter', noSort', kind', saveButtonTapped]
    · rw [sort'] at same
      simp [noFilter, sort, kind, noFilter', sort', kind', ← same, eq_comm]

theorem marks_after_tap (controller : FilterViewController) (cell : Cell) (marked : Marked controller) (other : Cell) :
    (didSelectRow controller cell).accessoryType other = .checkmark ↔
      other ∈ (didSelectRow controller cell).tapped := by
  have accessory : (didSelectRow controller cell).accessoryType other =
      if other = cell then .checkmark else controller.accessoryType other := by
    rw [didSelectRow, select_accessory]
  rw [row_tapped, accessory, List.mem_append, List.mem_singleton, ← marked.marks other]
  by_cases same : other = cell <;> simp [same]

theorem tap_agrees_iff (controller : FilterViewController) (cell : Cell) (marked : Marked controller) :
    CheckmarksAgree (didSelectRow controller cell) ↔
      ∀ other ∈ controller.tapped, other.filters = cell.filters → other = cell := by
  constructor
  · intro agree other earlier kind
    have shown := (marks_after_tap controller cell marked other).mpr
      (row_tapped controller cell ▸ List.mem_append_left [cell] earlier)
    have selected := (selected_after_tap controller cell other).mp ((agree other).mp shown)
    rwa [if_pos kind] at selected
  · intro only other
    rw [marks_after_tap controller cell marked other, selected_after_tap, row_tapped, List.mem_append,
      List.mem_singleton]
    by_cases kind : other.filters = cell.filters
    · rw [if_pos kind]
      exact ⟨fun listed => listed.elim (fun earlier => only other earlier kind) id, Or.inr⟩
    · rw [if_neg kind, ← marked.agree other, marked.marks other]
      exact or_iff_left fun same => kind (same ▸ rfl)

theorem step_agrees_iff (before : FilterViewController) (indexPath : IndexPath) (after : FilterViewController)
    (marked : Marked before) (taken : step before indexPath = some after) :
    CheckmarksAgree after ↔ FirstChoice before indexPath after := by
  obtain ⟨cell, tapped, same⟩ := Option.map_eq_some_iff.mp taken
  cases same
  rw [tap_agrees_iff before cell marked]
  exact ⟨fun only other found => by cases tapped.symm.trans found; exact only, fun only => only cell tapped⟩

theorem step_marked (before : FilterViewController) (indexPath : IndexPath) (after : FilterViewController)
    (marked : Marked before) (taken : step before indexPath = some after) (agree : CheckmarksAgree after) :
    Marked after := by
  obtain ⟨cell, -, same⟩ := Option.map_eq_some_iff.mp taken
  cases same
  exact ⟨agree, marks_after_tap before cell marked⟩

theorem first_marked : Marked firstScreen :=
  ⟨fun cell => by simp [firstScreen, IsSelected, saveButtonTapped], fun cell => by simp [firstScreen]⟩

theorem checkmarks_agree_iff (taps : List IndexPath) :
    Steps step (fun _ _ after => CheckmarksAgree after) firstScreen taps ↔ Steps step FirstChoice firstScreen taps :=
  steps_iff step Marked _ _ step_agrees_iff step_marked firstScreen taps first_marked

theorem second_price_keeps_first_mark :
    ¬ ∀ taps, Steps step (fun _ _ after => CheckmarksAgree after) firstScreen taps := by
  intro all
  have last := steps_after _ _ firstScreen _ [⟨0, 0⟩] [⟨0, 1⟩] rfl (all _)
  obtain ⟨agree, -⟩ := last _ rfl
  have selected := (agree .cheapVenueCell).mp rfl
  have sameKind : Cell.cheapVenueCell.filters = Cell.moderateVenueCell.filters := rfl
  rw [selected_after_tap, if_pos sameKind] at selected
  cases selected

end CultivationMotain.BubbleTeaFinder.Filter

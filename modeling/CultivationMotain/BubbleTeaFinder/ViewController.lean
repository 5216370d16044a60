import CultivationMotain.Library.Runs

set_option autoImplicit false

namespace CultivationMotain.BubbleTeaFinder

open Runs

structure FetchRequest (Predicate SortDescriptor : Type) where
  entityName : String
  predicate : Option Predicate
  sortDescriptors : Option (List SortDescriptor)
deriving DecidableEq, Repr

-- What the managed object context answers to a request, or the description of
-- its error. Once the seed is imported the app does not change the answers.
structure CoreDataStack (Predicate SortDescriptor Venue : Type) where
  fetch : FetchRequest Predicate SortDescriptor → Except String (List Venue)

-- asyncFetchRequest is the asynchronous request as issued, as long as its
-- completion is to come; rows are the venues at the last reloadData. saved is a
-- ghost, the filter that was saved last.
structure ViewController (Predicate SortDescriptor Venue : Type) where
  fetchRequest : FetchRequest Predicate SortDescriptor
  asyncFetchRequest : Option (FetchRequest Predicate SortDescriptor)
  venues : List Venue
  rows : List Venue
  saved : Option (Option Predicate × Option SortDescriptor)

variable {Predicate SortDescriptor Venue : Type} (stack : CoreDataStack Predicate SortDescriptor Venue)

def reloadData (controller : ViewController Predicate SortDescriptor Venue) :
    ViewController Predicate SortDescriptor Venue :=
  { controller with rows := controller.venues }

def wholeRequest : FetchRequest Predicate SortDescriptor := ⟨"Venue", none, none⟩

def viewDidLoad : ViewController Predicate SortDescriptor Venue := ⟨wholeRequest, some wholeRequest, [], [], none⟩

-- A fetch that failed has no finalResult, which the completion block unwraps.
def fetchCompleted (controller : ViewController Predicate SortDescriptor Venue) :
    Option (ViewController Predicate SortDescriptor Venue) :=
  match controller.asyncFetchRequest with
  | none => none
  | some issued =>
      match stack.fetch issued with
      | .error _ => none
      | .ok finalResult => some (reloadData { controller with asyncFetchRequest := none, venues := finalResult })

def fetchAndReload (controller : ViewController Predicate SortDescriptor Venue) :
    ViewController Predicate SortDescriptor Venue :=
  match stack.fetch controller.fetchRequest with
  | .error _ => controller
  | .ok venues => reloadData { controller with venues := venues }

def didSelectPredicate (controller : ViewController Predicate SortDescriptor Venue) (predicate : Option Predicate)
    (sortDescription : Option SortDescriptor) : ViewController Predicate SortDescriptor Venue :=
  let cleared := { controller.fetchRequest with predicate := none, sortDescriptors := none }
  let filtered := match predicate with
    | none => cleared
    | some fetchPredicate => { cleared with predicate := some fetchPredicate }
  let sorted := match sortDescription with
    | none => filtered
    | some fetchSort => { filtered with sortDescriptors := some [fetchSort] }
  fetchAndReload stack { controller with fetchRequest := sorted, saved := some (predicate, sortDescription) }

inductive Event (Predicate SortDescriptor : Type) where
  | completion
  | save (predicate : Option Predicate) (sortDescription : Option SortDescriptor)

def step (controller : ViewController Predicate SortDescriptor Venue) :
    Event Predicate SortDescriptor → Option (ViewController Predicate SortDescriptor Venue)
  | .completion => fetchCompleted stack controller
  | .save predicate sortDescription => some (didSelectPredicate stack controller predicate sortDescription)

def filterRequest (predicate : Option Predicate) (sortDescription : Option SortDescriptor) :
    FetchRequest Predicate SortDescriptor :=
  ⟨"Venue", predicate, sortDescription.map fun fetchSort => [fetchSort]⟩

-- After a filter was saved the rows are what the last one finds.
def ShowsLatest (controller : ViewController Predicate SortDescriptor Venue) : Prop :=
  ∀ predicate sortDescription, controller.saved = some (predicate, sortDescription) →
    stack.fetch (filterRequest predicate sortDescription) = .ok controller.rows

-- The completion comes before any filter is saved, or the filter saved last
-- finds all the venues in the order of the unfiltered fetch.
def Timely (before : ViewController Predicate SortDescriptor Venue) : Event Predicate SortDescriptor → Prop
  | .completion => ∀ predicate sortDescription, before.saved = some (predicate, sortDescription) →
      stack.fetch (filterRequest predicate sortDescription) = stack.fetch wholeRequest
  | .save _ _ => True

def Succeeds : Prop := ∀ request, ∃ venues, stack.fetch request = .ok venues

structure Consistent (controller : ViewController Predicate SortDescriptor Venue) : Prop where
  entity : controller.fetchRequest.entityName = "Venue"
  issued : ∀ request, controller.asyncFetchRequest = some request → request = wholeRequest
  latest : ShowsLatest stack controller

theorem select_request (controller : ViewController Predicate SortDescriptor Venue) (predicate : Option Predicate)
    (sortDescription : Option SortDescriptor) (entity : controller.fetchRequest.entityName = "Venue") :
    didSelectPredicate stack controller predicate sortDescription =
      fetchAndReload stack { controller with
        fetchRequest := filterRequest predicate sortDescription, saved := some (predicate, sortDescription) } := by
  unfold didSelectPredicate filterRequest
  cases predicate with
  | none => cases sortDescription <;> simp only [entity, Option.map_none, Option.map_some]
  | some fetchPredicate => cases sortDescription <;> simp only [entity, Option.map_none, Option.map_some]

theorem save_consistent (succeeds : Succeeds stack) (controller : ViewController Predicate SortDescriptor Venue)
    (predicate : Option Predicate) (sortDescription : Option SortDescriptor)
    (consistent : Consistent stack controller) :
    Consistent stack (didSelectPredicate stack controller predicate sortDescription) := by
  obtain ⟨venues, found⟩ := succeeds (filterRequest predicate sortDescription)
  rw [select_request stack controller predicate sortDescription consistent.entity]
  simp only [fetchAndReload, found]
  refine ⟨rfl, consistent.issued, ?_⟩
  intro other otherSort same
  cases same
  exact found

theorem completion_latest_iff (controller next : ViewController Predicate SortDescriptor Venue)
    (consistent : Consistent stack controller) (completed : fetchCompleted stack controller = some next) :
    (ShowsLatest stack next ↔ Timely stack controller .completion) ∧ next.fetchRequest = controller.fetchRequest ∧
      next.asyncFetchRequest = none := by
  unfold fetchCompleted at completed
  cases pending : controller.asyncFetchRequest with
  | none => simp only [pending, reduceCtorEq] at completed
  | some issued =>
      obtain rfl := consistent.issued issued pending
      cases found : stack.fetch wholeRequest with
      | error description => simp only [pending, found, reduceCtorEq] at completed
      | ok finalResult =>
          simp only [pending, found, Option.some.injEq] at completed
          obtain rfl := completed
          refine ⟨?_, rfl, rfl⟩
          unfold ShowsLatest Timely
          rw [found]
          exact Iff.rfl

theorem step_latest_iff (succeeds : Succeeds stack) (controller : ViewController Predicate SortDescriptor Venue)
    (event : Event Predicate SortDescriptor) (next : ViewController Predicate SortDescriptor Venue)
    (consistent : Consistent stack controller) (taken : step stack controller event = some next) :
    ShowsLatest stack next ↔ Timely stack controller event := by
  cases event with
  | completion => exact (completion_latest_iff stack controller next consistent taken).1
  | save predicate sortDescription =>
      obtain rfl := Option.some.inj taken
      exact iff_of_true (save_consistent stack succeeds controller predicate sortDescription consistent).latest trivial

theorem step_consistent (succeeds : Succeeds stack) (controller : ViewController Predicate SortDescriptor Venue)
    (event : Event Predicate SortDescriptor) (next : ViewController Predicate SortDescriptor Venue)
    (consistent : Consistent stack controller) (taken : step stack controller event = some next)
    (latest : ShowsLatest stack next) : Consistent stack next := by
  cases event with
  | completion =>
      obtain ⟨_, same, done⟩ := completion_latest_iff stack controller next consistent taken
      refine ⟨?_, fun request pending => ?_, latest⟩
      · rw [same]
        exact consistent.entity
      · rw [done] at pending
        cases pending
  | save predicate sortDescription =>
      obtain rfl := Option.some.inj taken
      exact save_consistent stack succeeds controller predicate sortDescription consistent

theorem loaded_consistent : Consistent stack viewDidLoad where
  entity := rfl
  issued _ pending := (Option.some.inj pending).symm
  latest _ _ absent := nomatch absent

-- In every run the rows are the last filter's, exactly when the first fetch
-- does not complete after a filter that finds something else.
theorem latest_filter_iff (succeeds : Succeeds stack) (events : List (Event Predicate SortDescriptor)) :
    Steps (step stack) (fun _ _ next => ShowsLatest stack next) viewDidLoad events ↔
      Steps (step stack) (fun before event _ => Timely stack before event) viewDidLoad events :=
  steps_iff (step stack) (Consistent stack) _ _ (step_latest_iff stack succeeds) (step_consistent stack succeeds)
    viewDidLoad events (loaded_consistent stack)

-- Venues are their prices; a predicate is a bound on the price.
def priced : CoreDataStack Nat Unit Nat where
  fetch request := .ok (match request.predicate with
    | none => [3, 1, 2]
    | some bound => [3, 1, 2].filter (· ≤ bound))

theorem priced_succeeds : Succeeds priced := fun _ => ⟨_, rfl⟩

theorem latest_filter_after_load :
    Steps (step priced) (fun _ _ next => ShowsLatest priced next) viewDidLoad
      [.completion, .save (some 2) none, .save (some 1) none] := by
  refine (latest_filter_iff priced priced_succeeds _).mpr ?_
  intro _ loaded
  obtain rfl := Option.some.inj loaded
  refine ⟨fun _ _ absent => (nomatch absent), ?_⟩
  exact fun _ _ => ⟨trivial, fun _ _ => ⟨trivial, trivial⟩⟩

theorem late_completion_shows_all :
    Succeeds priced ∧
      ¬ ∀ events, Steps (step priced) (fun _ _ next => ShowsLatest priced next) viewDidLoad events := by
  refine ⟨priced_succeeds, fun all => ?_⟩
  have last := steps_after _ _ viewDidLoad _ [.save (some 2) none] [.completion] rfl (all _)
  obtain ⟨latest, _⟩ := last _ rfl
  have found := Except.ok.inj (latest (some 2) none rfl)
  exact absurd found (by decide)

end CultivationMotain.BubbleTeaFinder

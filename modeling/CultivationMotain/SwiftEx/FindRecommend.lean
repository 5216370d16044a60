import CultivationMotain.Library.Runs
import Mathlib.Data.List.Basic

set_option autoImplicit false

namespace CultivationMotain.SwiftEx

open Runs

structure FocusImagesDetail where
  pic : Option String
deriving DecidableEq, Repr

structure FocusImages where
  list : Option (List FocusImagesDetail)
deriving DecidableEq, Repr

-- Model stands for the models that are passed on as they are.
structure DiscoveryColumns (Model : Type) where
  list : Option (List Model)

structure Recommends (Model : Type) where
  editorRecAlbum : Option Model
  focusImages : Option FocusImages
  special : Option Model

structure HotAndGuess (Model : Type) where
  discoverColumn : Option (DiscoveryColumns Model)
  guess : Option Model
  cityColumn : Option Model
  hotRecommends : Option Model

inductive Request where
  | recommends
  | hotAndGuess
  | live
deriving DecidableEq, Repr

inductive Response (Model : Type) where
  | recommends (models : Recommends Model)
  | hotAndGuess (models : HotAndGuess Model)
  | live (liveArray : Option (List Model))

structure FindRecViewModel (Model : Type) where
  editorRecAlbum : Option Model
  focusImages : Option FocusImages
  special : Option Model
  discoverColumn : Option (DiscoveryColumns Model)
  guess : Option Model
  cityColumn : Option Model
  hotRecommends : Option Model
  list : List Model
  focusPics : List String
  headerCategory : List Model

inductive Subview where
  | plain
  | cycleView (imageURLStringsGroup : List String)
deriving DecidableEq, Repr

-- An icon of the categories is at its x, with its model.
structure FindRecHeader (Model : Type) where
  subviews : List Subview
  adverScrollView : List Subview
  cateScrollView : List (Nat × Model)
  cateContentWidth : Nat
  focusImgNames : Option (List String)
  categoryModelArr : Option (List Model)

-- outstanding are the requests still to be answered. Two ghosts: latest are
-- the picture URLs of the recommend response applied last, applied is the
-- number of responses applied so far.
structure RecommendController (Model : Type) where
  viewModel : FindRecViewModel Model
  header : FindRecHeader Model
  outstanding : List Request
  latest : List String
  applied : Nat

variable {Model : Type}

def cateIconW : Nat := 71

def setupCycleView (header : FindRecHeader Model) : FindRecHeader Model :=
  { header with
    adverScrollView := []
    subviews := header.subviews ++ [.cycleView (header.focusImgNames.getD [])] }

def setupCategorys (header : FindRecHeader Model) : FindRecHeader Model :=
  let models := header.categoryModelArr.getD []
  if models.length = 0 then { header with cateScrollView := [] }
  else
    { header with
      cateContentWidth := models.length * cateIconW
      cateScrollView := models.mapIdx fun index detailModel => (index * cateIconW, detailModel) }

def setFocusImgNames (header : FindRecHeader Model) (names : List String) : FindRecHeader Model :=
  setupCycleView { header with focusImgNames := some names }

def setCategoryModelArr (header : FindRecHeader Model) (models : List Model) : FindRecHeader Model :=
  setupCategorys { header with categoryModelArr := some models }

def appendPics (focusPics : List String) (focusImage : Option FocusImages) : List String :=
  match focusImage.bind FocusImages.list with
  | none => focusPics
  | some list => list.foldl (fun pics item => pics ++ [item.pic.getD ""]) focusPics

def receive (viewModel : FindRecViewModel Model) : Response Model → FindRecViewModel Model
  | .recommends models =>
      { viewModel with
        editorRecAlbum := models.editorRecAlbum
        focusImages := models.focusImages
        special := models.special
        focusPics := appendPics viewModel.focusPics models.focusImages }
  | .hotAndGuess models =>
      { viewModel with
        discoverColumn := models.discoverColumn
        guess := models.guess
        cityColumn := models.cityColumn
        hotRecommends := models.hotRecommends
        headerCategory := (models.discoverColumn.bind DiscoveryColumns.list).getD viewModel.headerCategory }
  | .live liveArray => { viewModel with list := liveArray.getD viewModel.list }

def updateBlock (controller : RecommendController Model) : RecommendController Model :=
  let named := setFocusImgNames controller.header controller.viewModel.focusPics
  { controller with header := setCategoryModelArr named controller.viewModel.headerCategory }

def picURLs (focusImage : Option FocusImages) : List String :=
  ((focusImage.bind FocusImages.list).getD []).map fun item => item.pic.getD ""

def latestPics (controller : RecommendController Model) : Response Model → List String
  | .recommends models => picURLs models.focusImages
  | _ => controller.latest

def applyResponse (controller : RecommendController Model) (response : Response Model) : RecommendController Model :=
  updateBlock { controller with
    viewModel := receive controller.viewModel response
    latest := latestPics controller response
    applied := controller.applied + 1 }

def refreshDataSource (controller : RecommendController Model) : RecommendController Model :=
  { controller with outstanding := controller.outstanding ++ [.recommends, .hotAndGuess, .live] }

def Response.request : Response Model → Request
  | .recommends _ => .recommends
  | .hotAndGuess _ => .hotAndGuess
  | .live _ => .live

inductive Event (Model : Type) where
  | refresh
  | failed (index : Nat)
  | answered (index : Nat) (response : Response Model)

def answeredRequest (controller : RecommendController Model) (index : Nat) : RecommendController Model :=
  { controller with outstanding := controller.outstanding.eraseIdx index }

-- A response answers one of the outstanding requests, in any order.
def step (controller : RecommendController Model) : Event Model → Option (RecommendController Model)
  | .refresh => some (refreshDataSource controller)
  | .failed index =>
      if index < controller.outstanding.length then some (answeredRequest controller index) else none
  | .answered index response =>
      if controller.outstanding[index]? = some response.request then
        some (applyResponse (answeredRequest controller index) response)
      else none

def newViewModel : FindRecViewModel Model := ⟨none, none, none, none, none, none, none, [], [], []⟩

def newHeader : FindRecHeader Model := ⟨[.plain], [], [], 0, none, none⟩

def viewDidLoad : RecommendController Model := refreshDataSource ⟨newViewModel, newHeader, [], [], 0⟩

def Subview.images : Subview → Option (List String)
  | .plain => none
  | .cycleView imageURLStringsGroup => some imageURLStringsGroup

-- What the cycle views in the header show.
def cycleViews (header : FindRecHeader Model) : List (List String) :=
  (header.adverScrollView ++ header.subviews).filterMap Subview.images

def HeaderCurrent (_ : RecommendController Model) (event : Event Model) (after : RecommendController Model) : Prop :=
  ∀ index response, event = .answered index response →
    after.header.focusImgNames = some after.latest ∧ cycleViews after.header = [after.latest]

def FirstResponse (before : RecommendController Model) (event : Event Model) (_ : RecommendController Model) : Prop :=
  ∀ index response, event = .answered index response → before.applied = 0

-- Each response applied has left its cycle view in the header.
structure Accumulated (controller : RecommendController Model) : Prop where
  adver : controller.header.adverScrollView = []
  views : (cycleViews controller.header).length = controller.applied
  fresh : controller.applied = 0 → controller.viewModel.focusPics = [] ∧ controller.latest = []

theorem append_pics (focusPics : List String) (focusImage : Option FocusImages) :
    appendPics focusPics focusImage = focusPics ++ picURLs focusImage := by
  unfold appendPics picURLs
  cases focusImage.bind FocusImages.list with
  | none => exact (List.append_nil focusPics).symm
  | some list =>
      rw [Option.getD_some, List.map_eq_flatMap]
      exact List.foldl_append_eq_append

-- The categories are shown in views of their own.
theorem categorys_apart (header : FindRecHeader Model) (models : List Model) :
    (setCategoryModelArr header models).focusImgNames = header.focusImgNames ∧
      (setCategoryModelArr header models).adverScrollView = header.adverScrollView ∧
      (setCategoryModelArr header models).subviews = header.subviews := by
  unfold setCategoryModelArr setupCategorys
  by_cases empty : models.length = 0 <;> simp [empty]

theorem receive_pics (controller : RecommendController Model) (response : Response Model)
    (pics : controller.viewModel.focusPics = []) (latest : controller.latest = []) :
    (receive controller.viewModel response).focusPics = latestPics controller response := by
  cases response with
  | recommends models => simp only [receive, append_pics, pics, List.nil_append, latestPics]
  | hotAndGuess models => simp only [receive, pics, latestPics, latest]
  | live liveArray => simp only [receive, pics, latestPics, latest]

theorem apply_header (controller : RecommendController Model) (response : Response Model) :
    (applyResponse controller response).header.focusImgNames =
        some (receive controller.viewModel response).focusPics ∧
      (applyResponse controller response).header.adverScrollView = [] ∧
      (applyResponse controller response).header.subviews =
        controller.header.subviews ++ [.cycleView (receive controller.viewModel response).focusPics] := by
  rw [applyResponse, updateBlock]
  exact categorys_apart _ _

-- The cycle views of earlier responses were added to the header itself, which
-- is not what setupCycleView clears.
theorem apply_cycle_views (controller : RecommendController Model) (response : Response Model)
    (adver : controller.header.adverScrollView = []) :
    cycleViews (applyResponse controller response).header =
      cycleViews controller.header ++ [(receive controller.viewModel response).focusPics] := by
  obtain ⟨-, cleared, subviews⟩ := apply_header controller response
  rw [cycleViews, cleared, List.nil_append, subviews, List.filterMap_append, cycleViews, adver, List.nil_append]
  rfl

theorem answered_current_iff (controller : RecommendController Model) (response : Response Model)
    (accumulated : Accumulated controller) :
    (applyResponse controller response).header.focusImgNames = some (latestPics controller response) ∧
        cycleViews (applyResponse controller response).header = [latestPics controller response] ↔
      controller.applied = 0 := by
  rw [(apply_header controller response).1, apply_cycle_views controller response accumulated.adver]
  constructor
  · intro current
    have lengths := congrArg List.length current.2
    rw [List.length_append, accumulated.views] at lengths
    exact Nat.succ.inj lengths
  · intro first
    obtain ⟨pics, latest⟩ := accumulated.fresh first
    have empty : cycleViews controller.header = [] :=
      List.eq_nil_of_length_eq_zero (accumulated.views.trans first)
    rw [receive_pics controller response pics latest, empty]
    exact ⟨rfl, rfl⟩

theorem answered_accumulated (controller : RecommendController Model) (response : Response Model)
    (accumulated : Accumulated controller) : Accumulated (applyResponse controller response) := by
  refine ⟨(apply_header controller response).2.1, ?_, fun absent => absurd absent (Nat.succ_ne_zero _)⟩
  rw [apply_cycle_views controller response accumulated.adver, List.length_append, accumulated.views]
  rfl

theorem request_accumulated (controller : RecommendController Model) (index : Nat)
    (accumulated : Accumulated controller) : Accumulated (answeredRequest controller index) :=
  ⟨accumulated.adver, accumulated.views, accumulated.fresh⟩

theorem step_accumulated (before : RecommendController Model) (event : Event Model)
    (after : RecommendController Model) (accumulated : Accumulated before)
    (taken : step before event = some after) : Accumulated after := by
  cases event with
  | refresh =>
      cases taken
      exact ⟨accumulated.adver, accumulated.views, accumulated.fresh⟩
  | failed index =>
      obtain ⟨-, same⟩ := Option.ite_none_right_eq_some.mp taken
      cases same
      exact request_accumulated before index accumulated
  | answered index response =>
      obtain ⟨-, same⟩ := Option.ite_none_right_eq_some.mp taken
      cases same
      exact answered_accumulated _ response (request_accumulated before index accumulated)

theorem step_current_iff (before : RecommendController Model) (event : Event Model)
    (after : RecommendController Model) (accumulated : Accumulated before)
    (taken : step before event = some after) :
    HeaderCurrent before event after ↔ FirstResponse before event after := by
  cases event with
  | refresh => exact iff_of_true (fun _ _ absent => by cases absent) (fun _ _ absent => by cases absent)
  | failed index => exact iff_of_true (fun _ _ absent => by cases absent) (fun _ _ absent => by cases absent)
  | answered index response =>
      obtain ⟨-, same⟩ := Option.ite_none_right_eq_some.mp taken
      cases same
      have exact_first := answered_current_iff _ response (request_accumulated before index accumulated)
      constructor
      · intro current _ _ _
        exact exact_first.mp (current index response rfl)
      · intro first _ _ _
        exact exact_first.mpr (first index response rfl)

theorem loaded_accumulated : Accumulated (viewDidLoad : RecommendController Model) :=
  ⟨rfl, rfl, fun _ => ⟨rfl, rfl⟩⟩

theorem header_current_iff (events : List (Event Model)) :
    Steps step HeaderCurrent (viewDidLoad : RecommendController Model) events ↔
      Steps step FirstResponse (viewDidLoad : RecommendController Model) events :=
  steps_iff step Accumulated HeaderCurrent FirstResponse step_current_iff
    (fun before event after accumulated taken _ => step_accumulated before event after accumulated taken)
    viewDidLoad events loaded_accumulated

theorem second_response_adds_cycle_view :
    ¬ ∀ events, Steps step HeaderCurrent (viewDidLoad : RecommendController Nat) events := by
  intro all
  have last := steps_after step HeaderCurrent viewDidLoad _
    [.answered 0 (.recommends ⟨none, some ⟨some [⟨some "a.png"⟩]⟩, none⟩)] [.answered 1 (.live none)] rfl (all _)
  obtain ⟨current, -⟩ := last _ rfl
  exact absurd (current 1 (.live none) rfl).2 (by decide)

end CultivationMotain.SwiftEx

import CultivationMotain.Library.Runs

set_option autoImplicit false

namespace CultivationMotain.TouchMeIn.Master

open Runs

-- alpha is the view's, 0 or 1 only; segues are the identifiers of the segues
-- that were performed.
structure MasterViewController where
  isAuthenticated : Bool
  alpha : Nat
  didReturnFromBackground : Bool
  segues : List String
deriving DecidableEq, Repr

-- A view from the storyboard is opaque until viewDidLoad.
def fromStoryboard : MasterViewController := ⟨false, 1, false, []⟩

def viewDidLoad (controller : MasterViewController) : MasterViewController := { controller with alpha := 0 }

def performSegue (controller : MasterViewController) (identifier : String) : MasterViewController :=
  { controller with segues := controller.segues ++ [identifier] }

def showLoginView (controller : MasterViewController) : MasterViewController :=
  if !controller.isAuthenticated then performSegue controller "loginView" else controller

def unwindSegue (controller : MasterViewController) : MasterViewController :=
  { controller with isAuthenticated := true, alpha := 1 }

def appWillResignActive (controller : MasterViewController) : MasterViewController :=
  { controller with alpha := 0, isAuthenticated := false, didReturnFromBackground := true }

def appDidBecomeActive (controller : MasterViewController) : MasterViewController :=
  if controller.didReturnFromBackground then showLoginView controller else controller

def viewDidAppear (controller : MasterViewController) : MasterViewController := showLoginView controller

-- The view stays as it is.
def logoutAction (controller : MasterViewController) : MasterViewController :=
  performSegue { controller with isAuthenticated := false } "loginView"

inductive Event where
  | unwindSegue
  | appWillResignActive
  | appDidBecomeActive
  | viewDidAppear
  | logoutAction
deriving DecidableEq, Repr

def handle (controller : MasterViewController) : Event → Option MasterViewController
  | .unwindSegue => some (unwindSegue controller)
  | .appWillResignActive => some (appWillResignActive controller)
  | .appDidBecomeActive => some (appDidBecomeActive controller)
  | .viewDidAppear => some (viewDidAppear controller)
  | .logoutAction => some (logoutAction controller)

def loaded : MasterViewController := viewDidLoad fromStoryboard

def NotesHidden (controller : MasterViewController) : Prop := controller.alpha ≠ 0 → controller.isAuthenticated = true

-- The user logs out of a session that has ended already.
def LogsOutLocked (before : MasterViewController) (event : Event) : Prop :=
  event = .logoutAction → before.isAuthenticated = false

def Shown (controller : MasterViewController) : Prop := controller.alpha ≠ 0 ↔ controller.isAuthenticated = true

theorem show_login_keeps (controller : MasterViewController) :
    (showLoginView controller).alpha = controller.alpha ∧
      (showLoginView controller).isAuthenticated = controller.isAuthenticated := by
  unfold showLoginView
  by_cases locked : (!controller.isAuthenticated) = true
  · rw [if_pos locked]
    exact ⟨rfl, rfl⟩
  · rw [if_neg locked]
    exact ⟨rfl, rfl⟩

-- A login shows the notes, going to the background hides them, and the other
-- callbacks leave the view alone; of these only a logout changes the flag.
theorem handle_cases (controller next : MasterViewController) (event : Event)
    (handled : handle controller event = some next) :
    (next.alpha ≠ 0 ∧ next.isAuthenticated = true ∧ event ≠ .logoutAction) ∨
      (next.alpha = 0 ∧ next.isAuthenticated = false ∧ event ≠ .logoutAction) ∨
      (next.alpha = controller.alpha ∧ next.isAuthenticated = controller.isAuthenticated ∧ event ≠ .logoutAction) ∨
      (next.alpha = controller.alpha ∧ next.isAuthenticated = false ∧ event = .logoutAction) := by
  obtain ⟨same_alpha, same_flag⟩ := show_login_keeps controller
  cases event with
  | unwindSegue =>
      obtain rfl := Option.some.inj handled
      exact .inl ⟨Nat.one_ne_zero, rfl, nofun⟩
  | appWillResignActive =>
      obtain rfl := Option.some.inj handled
      exact .inr (.inl ⟨rfl, rfl, nofun⟩)
  | appDidBecomeActive =>
      obtain rfl := Option.some.inj handled
      refine .inr (.inr (.inl ?_))
      unfold appDidBecomeActive
      by_cases returned : controller.didReturnFromBackground = true
      · rw [if_pos returned]
        exact ⟨same_alpha, same_flag, nofun⟩
      · rw [if_neg returned]
        exact ⟨rfl, rfl, nofun⟩
  | viewDidAppear =>
      obtain rfl := Option.some.inj handled
      exact .inr (.inr (.inl ⟨same_alpha, same_flag, nofun⟩))
  | logoutAction =>
      obtain rfl := Option.some.inj handled
      exact .inr (.inr (.inr ⟨rfl, rfl, rfl⟩))

theorem handle_hidden_iff (controller : MasterViewController) (event : Event) (next : MasterViewController)
    (shown : Shown controller) (handled : handle controller event = some next) :
    NotesHidden next ↔ LogsOutLocked controller event := by
  unfold NotesHidden LogsOutLocked
  rcases handle_cases controller next event handled with
    ⟨_, flag, other⟩ | ⟨hidden, _, other⟩ | ⟨alpha, flag, other⟩ | ⟨alpha, flag, logout⟩
  · exact iff_of_true (fun _ => flag) fun same => absurd same other
  · exact iff_of_true (fun visible => absurd hidden visible) fun same => absurd same other
  · rw [alpha, flag]
    exact iff_of_true shown.mp fun same => absurd same other
  · rw [alpha, flag]
    constructor
    · intro kept _
      by_cases authenticated : controller.isAuthenticated = true
      · exact absurd (kept (shown.mpr authenticated)) Bool.false_ne_true
      · exact Bool.eq_false_iff.mpr authenticated
    · intro kept visible
      exact (kept logout).symm.trans (shown.mp visible)

theorem handle_keeps_shown (controller : MasterViewController) (event : Event) (next : MasterViewController)
    (shown : Shown controller) (handled : handle controller event = some next) (hidden : NotesHidden next) :
    Shown next := by
  refine ⟨hidden, fun authenticated => ?_⟩
  rcases handle_cases controller next event handled with
    ⟨visible, _⟩ | ⟨_, flag, _⟩ | ⟨alpha, flag, _⟩ | ⟨_, flag, _⟩
  · exact visible
  · exact absurd (flag.symm.trans authenticated) Bool.false_ne_true
  · rw [alpha]
    exact shown.mpr (flag.symm.trans authenticated)
  · exact absurd (flag.symm.trans authenticated) Bool.false_ne_true

theorem loaded_shown : Shown loaded := ⟨fun visible => absurd rfl visible, nofun⟩

-- In every run from viewDidLoad the notes are visible to an authenticated user
-- only, exactly when nobody who is authenticated logs out.
theorem notes_hidden_iff (events : List Event) :
    Steps handle (fun _ _ next => NotesHidden next) loaded events ↔
      Steps handle (fun before event _ => LogsOutLocked before event) loaded events :=
  steps_iff handle Shown _ _ handle_hidden_iff handle_keeps_shown loaded events loaded_shown

theorem logout_leaves_notes : ¬ ∀ events, Steps handle (fun _ _ next => NotesHidden next) loaded events := by
  intro all
  have last := steps_after _ _ loaded _ [.viewDidAppear, .unwindSegue] [.logoutAction] rfl (all _)
  obtain ⟨hidden, _⟩ := last _ rfl
  exact absurd (hidden Nat.one_ne_zero) Bool.false_ne_true

end CultivationMotain.TouchMeIn.Master

import CultivationMotain.Foundation.Geometry
import CultivationMotain.Library.Runs
import Mathlib.Algebra.Order.Field.Rat
import Mathlib.Algebra.Order.Floor.Ring
import Mathlib.Data.Rat.Floor
import Mathlib.Tactic.Linarith
import Mathlib.Tactic.NormNum

set_option autoImplicit false

namespace CultivationMotain.OfficeBuddy

open Foundation Runs

def menuWidth : CGFloat := 80

def M_PI : CGFloat := 3.14159265358979323846264338327950288

def M_PI_2 : CGFloat := 1.57079632679489661923132169163975144

-- A perspective, a rotation about the vertical axis, then a translation.
structure CATransform3D where
  m34 : CGFloat
  angle : CGFloat
  translation : CGFloat
deriving DecidableEq, Repr

structure MenuView where
  transform : CATransform3D
  alpha : CGFloat
  shouldRasterize : Bool
deriving DecidableEq, Repr

-- The button of the centre view, where it has one, is its image's rotation.
structure ContainerViewController where
  isOpening : Bool
  centerX : CGFloat
  menu : MenuView
  menuButton : Option CGFloat
deriving DecidableEq, Repr

inductive RecognizerState where
  | possible
  | began
  | changed
  | ended
  | cancelled
  | failed
deriving DecidableEq, Repr

def menuTransformForPercent (percent : CGFloat) : CATransform3D :=
  ⟨-1 / 1000, (1 - percent) * -M_PI_2, menuWidth * percent⟩

def setToPercent (controller : ContainerViewController) (percent : CGFloat) : ContainerViewController :=
  { controller with
    centerX := menuWidth * percent
    menu := { controller.menu with
      transform := menuTransformForPercent percent
      alpha := max (1 / 5) percent }
    menuButton := controller.menuButton.map fun _ => M_PI * (1 - percent) }

def setRasterize (controller : ContainerViewController) (rasterize : Bool) : ContainerViewController :=
  { controller with menu := { controller.menu with shouldRasterize := rasterize } }

def viewDidLoad (controller : ContainerViewController) : ContainerViewController := setToPercent controller 0

def isOpen (controller : ContainerViewController) : Bool := ⌊controller.centerX / menuWidth⌋ = 1

def gestureProgress (controller : ContainerViewController) (translationX : CGFloat) : CGFloat :=
  min (max (translationX / menuWidth * (if controller.isOpening then 1 else -1)) 0) 1

def targetProgress (controller : ContainerViewController) (progress : CGFloat) : CGFloat :=
  if controller.isOpening then if progress < 1 / 2 then 0 else 1
  else if progress < 1 / 2 then 1 else 0

-- The animation runs to its end, completion block included.
def animateTo (controller : ContainerViewController) (percent : CGFloat) : ContainerViewController :=
  setRasterize (setToPercent controller percent) false

def handleGesture (controller : ContainerViewController) (state : RecognizerState) (translationX : CGFloat) :
    ContainerViewController :=
  let progress := gestureProgress controller translationX
  match state with
  | .began => setRasterize { controller with isOpening := !isOpen controller } true
  | .changed => setToPercent controller (if controller.isOpening then progress else 1 - progress)
  | .ended | .cancelled | .failed => animateTo controller (targetProgress controller progress)
  | .possible => controller

def toggleSideMenu (controller : ContainerViewController) : ContainerViewController :=
  animateTo controller (if isOpen controller then 0 else 1)

-- While a gesture is in progress, startedAt is where it found the centre view.
structure Screen where
  controller : ContainerViewController
  startedAt : Option CGFloat
deriving DecidableEq, Repr

inductive Event where
  | pan (state : RecognizerState) (translationX : CGFloat)
  | toggle
deriving DecidableEq, Repr

-- A gesture begins when none is in progress, then changes, then comes to its
-- end; the recogniser calls its action in no other state.
def step (screen : Screen) : Event → Option Screen
  | .pan .possible _ => none
  | .pan .began translationX =>
      if screen.startedAt.isNone then
        some ⟨handleGesture screen.controller .began translationX, some screen.controller.centerX⟩
      else none
  | .pan .changed translationX =>
      if screen.startedAt.isSome then
        some ⟨handleGesture screen.controller .changed translationX, screen.startedAt⟩
      else none
  | .pan state translationX =>
      if screen.startedAt.isSome then some ⟨handleGesture screen.controller state translationX, none⟩ else none
  | .toggle => some { screen with controller := toggleSideMenu screen.controller }

def firstScreen (menu : MenuView) (centerX : CGFloat) (menuButton : Option CGFloat) : Screen :=
  ⟨viewDidLoad ⟨false, centerX, menu, menuButton⟩, none⟩

-- A gesture that finds the menu closed opens it, and one that finds it open
-- closes it.
def OpensFrom (start : CGFloat) (isOpening : Bool) : Prop :=
  (start = 0 ∧ isOpening = true) ∨ (start = menuWidth ∧ isOpening = false)

structure MenuInOrder (screen : Screen) : Prop where
  within : 0 ≤ screen.controller.centerX ∧ screen.controller.centerX ≤ menuWidth
  resting : screen.startedAt = none → screen.controller.centerX = 0 ∨ screen.controller.centerX = menuWidth
  opposite : ∀ start, screen.startedAt = some start → OpensFrom start screen.controller.isOpening

-- A gesture that ends before the middle leaves the centre view where it found it.
def StaysBelowHalf (before : Screen) (event : Event) (after : Screen) : Prop :=
  ∀ state translationX start, event = .pan state translationX → before.startedAt = some start →
    after.startedAt = none → gestureProgress before.controller translationX < 1 / 2 →
    after.controller.centerX = start

def KeepsOrder (before : Screen) (event : Event) (after : Screen) : Prop :=
  MenuInOrder after ∧ StaysBelowHalf before event after

-- The other views are where the position of the centre view says.
structure ViewsAgree (controller : ContainerViewController) : Prop where
  transform : controller.menu.transform = menuTransformForPercent (controller.centerX / menuWidth)
  alpha : controller.menu.alpha = max (1 / 5) (controller.centerX / menuWidth)
  button : ∀ angle, controller.menuButton = some angle → angle = M_PI * (1 - controller.centerX / menuWidth)

@[simp] theorem set_percent_center (controller : ContainerViewController) (percent : CGFloat) :
    (setToPercent controller percent).centerX = menuWidth * percent := rfl

@[simp] theorem set_percent_opening (controller : ContainerViewController) (percent : CGFloat) :
    (setToPercent controller percent).isOpening = controller.isOpening := rfl

@[simp] theorem animate_center (controller : ContainerViewController) (percent : CGFloat) :
    (animateTo controller percent).centerX = menuWidth * percent := rfl

@[simp] theorem animate_opening (controller : ContainerViewController) (percent : CGFloat) :
    (animateTo controller percent).isOpening = controller.isOpening := rfl

theorem menu_width_positive : 0 < menuWidth := by norm_num [menuWidth]

theorem center_over_width (percent : CGFloat) : menuWidth * percent / menuWidth = percent :=
  mul_div_cancel_left₀ percent menu_width_positive.ne'

theorem center_within (percent : CGFloat) (least : 0 ≤ percent) (most : percent ≤ 1) :
    0 ≤ menuWidth * percent ∧ menuWidth * percent ≤ menuWidth :=
  ⟨mul_nonneg menu_width_positive.le least, mul_le_of_le_one_right menu_width_positive.le most⟩

theorem center_ends (percent : CGFloat) (ends : percent = 0 ∨ percent = 1) :
    menuWidth * percent = 0 ∨ menuWidth * percent = menuWidth := by
  cases ends with
  | inl none => exact Or.inl (by rw [none, mul_zero])
  | inr whole => exact Or.inr (by rw [whole, mul_one])

theorem animate_in_order (controller : ContainerViewController) (percent : CGFloat) (ends : percent = 0 ∨ percent = 1) :
    (0 ≤ (animateTo controller percent).centerX ∧ (animateTo controller percent).centerX ≤ menuWidth) ∧
      ((animateTo controller percent).centerX = 0 ∨ (animateTo controller percent).centerX = menuWidth) := by
  rw [animate_center]
  cases ends with
  | inl none => exact ⟨center_within percent none.ge (none.trans_le zero_le_one), center_ends percent (Or.inl none)⟩
  | inr whole =>
      exact ⟨center_within percent (zero_le_one.trans whole.ge) whole.le, center_ends percent (Or.inr whole)⟩

theorem progress_within (controller : ContainerViewController) (translationX : CGFloat) :
    0 ≤ gestureProgress controller translationX ∧ gestureProgress controller translationX ≤ 1 :=
  ⟨le_min (le_max_right _ _) zero_le_one, min_le_right _ _⟩

theorem target_ends (controller : ContainerViewController) (progress : CGFloat) :
    targetProgress controller progress = 0 ∨ targetProgress controller progress = 1 := by
  unfold targetProgress
  split_ifs <;> simp

theorem is_open_closed (controller : ContainerViewController) (closed : controller.centerX = 0) :
    isOpen controller = false := by
  simp [isOpen, closed]

theorem is_open_opened (controller : ContainerViewController) (opened : controller.centerX = menuWidth) :
    isOpen controller = true := by
  simp [isOpen, opened, div_self menu_width_positive.ne']

-- What an event does to the controller, and to the gesture in progress.
theorem step_cases (before after : Screen) (event : Event) (taken : step before event = some after) :
    (before.startedAt = none ∧ after.startedAt = some before.controller.centerX ∧
      after.controller = setRasterize { before.controller with isOpening := !isOpen before.controller } true) ∨
    (∃ percent, 0 ≤ percent ∧ percent ≤ 1 ∧ before.startedAt.isSome ∧ after.startedAt = before.startedAt ∧
      after.controller = setToPercent before.controller percent) ∨
    (∃ state translationX, event = .pan state translationX ∧ after.startedAt = none ∧
      after.controller = animateTo before.controller
        (targetProgress before.controller (gestureProgress before.controller translationX))) ∨
    (event = .toggle ∧ after.startedAt = before.startedAt ∧ ∃ percent, (percent = 0 ∨ percent = 1) ∧
      after.controller = animateTo before.controller percent) := by
  cases event with
  | toggle =>
      cases taken
      refine Or.inr (Or.inr (Or.inr ⟨rfl, rfl, _, ?_, rfl⟩))
      by_cases opened : isOpen before.controller <;> simp [opened]
  | pan state translationX =>
      have bounds := progress_within before.controller translationX
      cases state with
      | possible => cases taken
      | began =>
          obtain ⟨free, same⟩ := Option.ite_none_right_eq_some.mp taken
          cases same
          exact Or.inl ⟨Option.isNone_iff_eq_none.mp free, rfl, rfl⟩
      | changed =>
          obtain ⟨busy, same⟩ := Option.ite_none_right_eq_some.mp taken
          cases same
          refine Or.inr (Or.inl ⟨_, ?_, ?_, busy, rfl, rfl⟩)
          · split_ifs <;> linarith
          · split_ifs <;> linarith
      | ended | cancelled | failed =>
          obtain ⟨-, same⟩ := Option.ite_none_right_eq_some.mp taken
          cases same
          exact Or.inr (Or.inr (Or.inl ⟨_, translationX, rfl, rfl, rfl⟩))

theorem target_below_half (controller : ContainerViewController) (start progress : CGFloat) (low : progress < 1 / 2)
    (opposite : OpensFrom start controller.isOpening) : menuWidth * targetProgress controller progress = start := by
  cases opposite with
  | inl opening => rw [targetProgress, if_pos opening.2, if_pos low, opening.1, mul_zero]
  | inr closing => rw [targetProgress, if_neg (by simp [closing.2]), if_pos low, closing.1, mul_one]

theorem began_opposite (controller : ContainerViewController)
    (ends : controller.centerX = 0 ∨ controller.centerX = menuWidth) :
    OpensFrom controller.centerX (!isOpen controller) := by
  cases ends with
  | inl closed => exact Or.inl ⟨closed, by rw [is_open_closed controller closed]; rfl⟩
  | inr opened => exact Or.inr ⟨opened, by rw [is_open_opened controller opened]; rfl⟩

theorem order_kept (before after : Screen) (event : Event) (order : MenuInOrder before)
    (taken : step before event = some after) : MenuInOrder after := by
  rcases step_cases before after event taken with ⟨free, started, same⟩ |
    ⟨percent, least, most, busy, started, same⟩ | ⟨state, translationX, -, started, same⟩ |
    ⟨-, started, percent, ends, same⟩
  · have opposite := began_opposite before.controller (order.resting free)
    refine ⟨by rw [same]; exact order.within, fun rested => ?_, fun start known => ?_⟩
    · rw [started] at rested
      cases rested
    · rw [started] at known
      cases known
      rw [same]
      exact opposite
  · refine ⟨by rw [same]; exact center_within percent least most, fun rested => ?_, fun start known => ?_⟩
    · rw [← started, rested] at busy
      cases busy
    · rw [same, set_percent_opening]
      exact order.opposite start (started ▸ known)
  · have ends := target_ends before.controller (gestureProgress before.controller translationX)
    have animated := animate_in_order before.controller _ ends
    rw [← same] at animated
    refine ⟨animated.1, fun _ => animated.2, fun start known => ?_⟩
    rw [started] at known
    cases known
  · have animated := animate_in_order before.controller percent ends
    rw [← same] at animated
    refine ⟨animated.1, fun _ => animated.2, fun start known => ?_⟩
    rw [same, animate_opening]
    exact order.opposite start (started ▸ known)

theorem stays_below_half (before after : Screen) (event : Event) (order : MenuInOrder before)
    (taken : step before event = some after) : StaysBelowHalf before event after := by
  intro state translationX start panned known rested low
  rcases step_cases before after event taken with ⟨-, started, -⟩ | ⟨-, -, -, -, started, -⟩ |
    ⟨_, moved, panned', -, same⟩ | ⟨toggled, -⟩
  · rw [rested] at started
    cases started
  · rw [rested, known] at started
    cases started
  · cases panned.symm.trans panned'
    rw [same]
    exact target_below_half before.controller start _ low (order.opposite start known)
  · cases panned.symm.trans toggled

theorem first_in_order (menu : MenuView) (centerX : CGFloat) (menuButton : Option CGFloat) :
    MenuInOrder (firstScreen menu centerX menuButton) :=
  ⟨center_within 0 le_rfl zero_le_one, fun _ => center_ends 0 (Or.inl rfl), fun _ known => by cases known⟩

theorem views_agree_at (controller : ContainerViewController) (percent : CGFloat) :
    ViewsAgree (setToPercent controller percent) := by
  refine ⟨?_, ?_, ?_⟩
  · rw [set_percent_center, center_over_width]
    rfl
  · rw [set_percent_center, center_over_width]
    rfl
  · intro angle known
    obtain ⟨_, -, same⟩ := Option.map_eq_some_iff.mp known
    rw [set_percent_center, center_over_width, same]

theorem views_agree_kept (before after : Screen) (event : Event) (agree : ViewsAgree before.controller)
    (taken : step before event = some after) : ViewsAgree after.controller := by
  rcases step_cases before after event taken with ⟨-, -, same⟩ | ⟨percent, -, -, -, -, same⟩ |
    ⟨_, _, -, -, same⟩ | ⟨-, -, percent, -, same⟩
  · rw [same]
    exact ⟨agree.transform, agree.alpha, agree.button⟩
  · rw [same]
    exact views_agree_at before.controller percent
  all_goals
    rw [same]
    have agrees := views_agree_at before.controller
    exact ⟨(agrees _).transform, (agrees _).alpha, (agrees _).button⟩

theorem views_agree_along (menu : MenuView) (centerX : CGFloat) (menuButton : Option CGFloat) (events : List Event)
    (final : Screen) (ran : run step (firstScreen menu centerX menuButton) events = some final) :
    ViewsAgree final.controller :=
  run_invariant step (fun screen => ViewsAgree screen.controller) (fun _ => True)
    (fun before event after agree _ taken => views_agree_kept before after event agree taken)
    _ final events (fun _ _ => trivial) ran (views_agree_at _ 0)

theorem side_menu_stays_in_order (menu : MenuView) (centerX : CGFloat) (menuButton : Option CGFloat)
    (events : List Event) :
    MenuInOrder (firstScreen menu centerX menuButton) ∧
      Steps step KeepsOrder (firstScreen menu centerX menuButton) events ∧
      ∀ final, run step (firstScreen menu centerX menuButton) events = some final → ViewsAgree final.controller := by
  have start := first_in_order menu centerX menuButton
  refine ⟨start, steps_of_invariant step MenuInOrder KeepsOrder ?_ _ events start,
    views_agree_along menu centerX menuButton events⟩
  intro before event after order taken
  have kept := order_kept before after event order taken
  exact ⟨⟨kept, stays_below_half before after event order taken⟩, kept⟩

end CultivationMotain.OfficeBuddy

import CultivationMotain.Library.Doubles
import CultivationMotain.Library.Runs
import Mathlib.Data.List.Basic

set_option autoImplicit false

namespace CultivationMotain.PullToRefresh

open Doubles Runs

-- The doubles of a 64-bit device, which round.
abbrev CGFloat := Float

def kRefreshViewHeight : CGFloat := 110

structure UIScrollView where
  contentOffsetY : CGFloat
  contentInsetTop : CGFloat
deriving DecidableEq, Repr

structure RefreshView where
  scrollView : UIScrollView
  frameHeight : CGFloat
  progress : CGFloat
  isRefreshing : Bool
  strokeEnd : CGFloat
  opacity : Float32
deriving DecidableEq, Repr

def redrawFromProgress (view : RefreshView) (progress : CGFloat) : RefreshView :=
  { view with strokeEnd := progress, opacity := progress.toFloat32 }

-- Swift's max and min, which say what becomes of a NaN.
def maximum (x y : CGFloat) : CGFloat := if y ≥ x then y else x

def minimum (x y : CGFloat) : CGFloat := if y < x then y else x

def scrollProgress (view : RefreshView) : CGFloat :=
  let offsetY := maximum (-(view.scrollView.contentOffsetY + view.scrollView.contentInsetTop)) 0
  minimum (maximum (offsetY / view.frameHeight) 0) 1

def scrollViewDidScroll (view : RefreshView) : RefreshView :=
  let scrolled := { view with progress := scrollProgress view }
  if !scrolled.isRefreshing then redrawFromProgress scrolled scrolled.progress else scrolled

-- The animation block applies its final inset at once.
def setInsetTop (view : RefreshView) (top : CGFloat) : RefreshView :=
  { view with scrollView := { view.scrollView with contentInsetTop := top } }

def beginRefreshing (view : RefreshView) : RefreshView :=
  setInsetTop { view with isRefreshing := true } (view.scrollView.contentInsetTop + view.frameHeight)

def endRefreshing (view : RefreshView) : RefreshView :=
  setInsetTop { view with isRefreshing := false } (view.scrollView.contentInsetTop - view.frameHeight)

-- The refreshes are numbered as they begin. A pending end timer, and an end
-- in the log, carries the number of the refresh it belongs to.
structure Screen where
  refreshView : RefreshView
  begun : Nat
  pending : List Nat
  ended : List Nat
deriving DecidableEq, Repr

def refreshViewDidRefresh (screen : Screen) : Screen := { screen with pending := screen.pending ++ [screen.begun] }

def scrollViewWillEndDragging (screen : Screen) : Screen :=
  if !screen.refreshView.isRefreshing && screen.refreshView.progress ≥ 1 then
    let notified := refreshViewDidRefresh screen
    { notified with refreshView := beginRefreshing notified.refreshView, begun := notified.begun + 1 }
  else screen

def timerFired (screen : Screen) (index refresh : Nat) : Screen :=
  { screen with
    refreshView := endRefreshing screen.refreshView
    pending := screen.pending.eraseIdx index
    ended := screen.ended ++ [refresh] }

inductive Event where
  | scroll (contentOffsetY : CGFloat)
  | endDragging
  | timer (index : Nat)
deriving DecidableEq, Repr

def scrollTo (view : RefreshView) (contentOffsetY : CGFloat) : RefreshView :=
  { view with scrollView := { view.scrollView with contentOffsetY := contentOffsetY } }

def step (screen : Screen) : Event → Option Screen
  | .scroll contentOffsetY =>
      some { screen with refreshView := scrollViewDidScroll (scrollTo screen.refreshView contentOffsetY) }
  | .endDragging => some (scrollViewWillEndDragging screen)
  | .timer index => screen.pending[index]?.map (timerFired screen index)

def viewDidLoad (scrollView : UIScrollView) : Screen where
  refreshView := ⟨scrollView, kRefreshViewHeight, 0, false, 1, 0⟩
  begun := 0
  pending := []
  ended := []

-- Adding the height and taking it away again gives the inset back.
def Restores (original : CGFloat) : Prop := (original + kRefreshViewHeight - kRefreshViewHeight == original) = true

instance (original : CGFloat) : Decidable (Restores original) := inferInstanceAs (Decidable (_ = _))

-- Every refresh that has begun has ended once, but the one whose end timer is
-- pending.
structure InsetBalanced (original : CGFloat) (screen : Screen) : Prop where
  height : screen.refreshView.frameHeight = kRefreshViewHeight
  inset : (screen.refreshView.scrollView.contentInsetTop ==
    if screen.refreshView.isRefreshing then original + kRefreshViewHeight else original) = true
  timers : screen.pending.length = if screen.refreshView.isRefreshing then 1 else 0
  endsOnce : screen.ended ++ screen.pending = List.range screen.begun

-- A timer ends the refresh that it was scheduled for, and nothing else does.
def EndsRefresh (before : Screen) (event : Event) (after : Screen) : Prop :=
  match event with
  | .timer _ =>
      before.refreshView.isRefreshing = true ∧ after.refreshView.isRefreshing = false ∧
        ∃ refresh, before.pending = [refresh] ∧ after.pending = [] ∧ after.ended = before.ended ++ [refresh]
  | _ => after.ended = before.ended ∧ (before.refreshView.isRefreshing = true → after.refreshView.isRefreshing = true)

theorem height_proper : Proper kRefreshViewHeight := ⟨_, _, _, by decide, rfl⟩

-- Scrolling changes what is drawn, and nothing that the inset depends on.
theorem did_scroll_redraws (view : RefreshView) :
    ∃ progress strokeEnd opacity, scrollViewDidScroll view =
      { view with progress := progress, strokeEnd := strokeEnd, opacity := opacity } := by
  by_cases refreshing : view.isRefreshing
  · exact ⟨scrollProgress view, view.strokeEnd, view.opacity, by simp [scrollViewDidScroll, refreshing]⟩
  · exact ⟨scrollProgress view, scrollProgress view, (scrollProgress view).toFloat32,
      by simp [scrollViewDidScroll, redrawFromProgress, refreshing]⟩

section Step

variable (original : CGFloat) (restores : Restores original) (screen : Screen)
  (balanced : InsetBalanced original screen)

include balanced

theorem balanced_scroll (contentOffsetY : CGFloat) (after : Screen)
    (taken : step screen (.scroll contentOffsetY) = some after) :
    InsetBalanced original after ∧ EndsRefresh screen (.scroll contentOffsetY) after := by
  cases taken
  obtain ⟨progress, strokeEnd, opacity, same⟩ := did_scroll_redraws (scrollTo screen.refreshView contentOffsetY)
  rw [same]
  exact ⟨⟨balanced.height, balanced.inset, balanced.timers, balanced.endsOnce⟩, rfl, id⟩

include restores

theorem balanced_dragging (after : Screen) (taken : step screen .endDragging = some after) :
    InsetBalanced original after ∧ EndsRefresh screen .endDragging after := by
  cases taken
  unfold scrollViewWillEndDragging
  by_cases begins : (!screen.refreshView.isRefreshing && screen.refreshView.progress ≥ 1) = true
  · rw [if_pos begins]
    have resting : screen.refreshView.isRefreshing = false := by simpa using (Bool.and_eq_true_iff.mp begins).1
    have inset := balanced.inset
    have timers := balanced.timers
    rw [resting] at inset timers
    have idle : screen.pending = [] := List.length_eq_zero_iff.mp timers
    have added : (screen.refreshView.scrollView.contentInsetTop + screen.refreshView.frameHeight ==
        original + kRefreshViewHeight) = true := by
      rw [balanced.height, add_same _ _ _ height_proper inset]
      exact self_of_sub _ _ _ restores
    have numbered : screen.ended ++ (screen.pending ++ [screen.begun]) = List.range (screen.begun + 1) := by
      rw [← List.append_assoc, balanced.endsOnce, List.range_succ]
    have scheduled : (screen.pending ++ [screen.begun]).length = 1 := by
      rw [idle, List.nil_append, List.length_singleton]
    exact ⟨⟨balanced.height, added, scheduled, numbered⟩, rfl, fun _ => rfl⟩
  · rw [if_neg begins]
    exact ⟨balanced, rfl, id⟩

theorem balanced_timer (index : Nat) (after : Screen) (taken : step screen (.timer index) = some after) :
    InsetBalanced original after ∧ EndsRefresh screen (.timer index) after := by
  obtain ⟨refresh, due, rfl⟩ := Option.map_eq_some_iff.mp taken
  have inset := balanced.inset
  have timers := balanced.timers
  have earlier := (List.getElem?_eq_some_iff.mp due).1
  -- An end timer is only pending during a refresh, and is then the only one.
  have refreshing : screen.refreshView.isRefreshing = true := by
    by_contra resting
    rw [if_neg resting] at timers
    omega
  rw [if_pos refreshing] at inset timers
  obtain ⟨only, single⟩ := List.length_eq_one_iff.mp timers
  have first : index = 0 := by omega
  have same : only = refresh := by simpa [single, first] using due
  have subtracted : (screen.refreshView.scrollView.contentInsetTop - screen.refreshView.frameHeight == original) =
      true := by
    rw [balanced.height, sub_same _ _ _ height_proper inset]
    exact restores
  have idle : screen.pending.eraseIdx index = [] := by rw [single, first, List.eraseIdx_cons_zero]
  have numbered : screen.ended ++ [refresh] ++ screen.pending.eraseIdx index = List.range screen.begun := by
    rw [idle, List.append_nil, ← balanced.endsOnce, single, same]
  exact ⟨⟨balanced.height, subtracted, by rw [timerFired, idle]; rfl, numbered⟩, refreshing, rfl, refresh,
    same ▸ single, idle, rfl⟩

theorem balanced_step (after : Screen) (event : Event) (taken : step screen event = some after) :
    InsetBalanced original after ∧ EndsRefresh screen event after := by
  cases event with
  | scroll contentOffsetY => exact balanced_scroll original screen balanced contentOffsetY after taken
  | endDragging => exact balanced_dragging original restores screen balanced after taken
  | timer index => exact balanced_timer original restores screen balanced index after taken

end Step

end CultivationMotain.PullToRefresh

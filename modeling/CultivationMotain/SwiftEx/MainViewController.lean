import CultivationMotain.Library.Runs
import Mathlib.Data.List.Nodup

set_option autoImplicit false

namespace CultivationMotain.SwiftEx.Tabs

open Runs

def kTagPlus : Int := 100

structure UIButton where
  tag : Int
  isSelected : Bool
  isUserInteractionEnabled : Bool
  shadow : Bool
deriving DecidableEq, Repr

-- bgImageView is the bar, with its buttons; presented counts the play screens
-- that were presented.
structure MainViewController where
  bgImageView : List UIButton
  selectedIndex : Int
  presented : Nat
deriving DecidableEq, Repr

def newButton (index : Nat) : UIButton := ⟨kTagPlus + index, false, true, false⟩

def press (button : UIButton) : UIButton := { button with isSelected := true, isUserInteractionEnabled := false }

def release (button : UIButton) : UIButton := { button with isSelected := false, isUserInteractionEnabled := true }

def update (controller : MainViewController) (place : Nat) (change : UIButton → UIButton) : MainViewController :=
  { controller with bgImageView := controller.bgImageView.modify place change }

def versionTabBarSelectedIndex (controller : MainViewController) (index : Int) : Bool × MainViewController :=
  if index = 2 then (false, { controller with presented := controller.presented + 1 }) else (true, controller)

-- The loop of tabBarItemSelected at one subview; button is the tapped one.
def visit (button : Nat) (controller : MainViewController) (place : Nat) : MainViewController :=
  match controller.bgImageView[place]?, controller.bgImageView[button]? with
  | some xBtn, some sender =>
      if xBtn.tag = sender.tag then
        let btnTag := xBtn.tag - kTagPlus
        match versionTabBarSelectedIndex (update controller place release) btnTag with
        | (true, shown) => { shown with selectedIndex := btnTag }
        | (false, shown) => update shown button release
      else controller
  | _, _ => controller

def tabBarItemSelected (controller : MainViewController) (button : Nat) : MainViewController :=
  (List.range controller.bgImageView.length).foldl (visit button) (update controller button press)

def viewWithTag (controller : MainViewController) (tag : Int) : Option Nat :=
  controller.bgImageView.findIdx? fun button => button.tag = tag

-- None is a trap: the first tab's button is unwrapped.
def createCustomTabBar (controller : MainViewController) : Option MainViewController :=
  let added := { controller with bgImageView := controller.bgImageView ++ (List.range 5).map newButton }
  match viewWithTag added 102 with
  | none => some added
  | some playBtn =>
      let shadowed := update added playBtn fun button => { button with shadow := true }
      (viewWithTag shadowed kTagPlus).map (tabBarItemSelected shadowed)

-- A tap names the button by its place in the bar.
def step (controller : MainViewController) (button : Nat) : Option MainViewController :=
  if (controller.bgImageView[button]?.map UIButton.isUserInteractionEnabled) = some true then
    some (tabBarItemSelected controller button)
  else none

structure SelectionRight (controller : MainViewController) : Prop where
  single : ∃ button ∈ controller.bgImageView, button.isSelected = true ∧ button.isUserInteractionEnabled = false ∧
    button.tag - kTagPlus = controller.selectedIndex ∧
    ∀ other ∈ controller.bgImageView, other.isSelected = true ∧ other.isUserInteractionEnabled = false →
      other = button
  play : ∀ button ∈ controller.bgImageView, button.tag = kTagPlus + 2 → button.isSelected = false

-- No button is selected, and every button can be tapped.
structure Released (controller : MainViewController) : Prop where
  tags : (controller.bgImageView.map UIButton.tag).Nodup
  released : ∀ button ∈ controller.bgImageView, release button = button

theorem update_tags (controller : MainViewController) (place : Nat) (change : UIButton → UIButton)
    (keeps : ∀ button, (change button).tag = button.tag) :
    (update controller place change).bgImageView.map UIButton.tag = controller.bgImageView.map UIButton.tag := by
  apply List.ext_getElem?
  intro index
  simp only [update, List.getElem?_map, List.getElem?_modify]
  by_cases here : place = index
  · cases controller.bgImageView[index]? <;> simp [here, keeps]
  · cases controller.bgImageView[index]? <;> simp [here]

theorem tags_differ (controller : MainViewController) (tags : (controller.bgImageView.map UIButton.tag).Nodup)
    (place button : Nat) (xBtn sender : UIButton) (here : controller.bgImageView[place]? = some xBtn)
    (there : controller.bgImageView[button]? = some sender) (same : xBtn.tag = sender.tag) : place = button := by
  have inside : place < (controller.bgImageView.map UIButton.tag).length := by
    rw [List.length_map]
    exact (List.getElem?_eq_some_iff.mp here).1
  apply (List.getElem?_inj inside tags).mp
  rw [List.getElem?_map, List.getElem?_map, here, there, Option.map_some, Option.map_some, same]

-- The loop passes over every button but the tapped one.
theorem visit_other (controller : MainViewController) (tags : (controller.bgImageView.map UIButton.tag).Nodup)
    (button place : Nat) (other : place ≠ button) : visit button controller place = controller := by
  unfold visit
  cases here : controller.bgImageView[place]? with
  | none => rfl
  | some xBtn =>
      cases there : controller.bgImageView[button]? with
      | none => rfl
      | some sender =>
          have differ : xBtn.tag ≠ sender.tag := fun same =>
            other (tags_differ controller tags place button xBtn sender here there same)
          simp only [differ, if_false]

theorem visit_others (controller : MainViewController) (tags : (controller.bgImageView.map UIButton.tag).Nodup)
    (button : Nat) (places : List Nat) (others : button ∉ places) :
    places.foldl (visit button) controller = controller := by
  induction places with
  | nil => rfl
  | cons place rest ih =>
      have other := List.ne_of_not_mem_cons others
      have later := List.not_mem_of_not_mem_cons others
      rw [List.foldl_cons, visit_other controller tags button place other.symm, ih later]

theorem visit_tapped (controller : MainViewController) (button : Nat) :
    (visit button controller button).bgImageView = controller.bgImageView.modify button release := by
  unfold visit
  cases here : controller.bgImageView[button]? with
  | none => exact (List.modify_eq_self (List.getElem?_eq_none_iff.mp here)).symm
  | some sender =>
      by_cases play : sender.tag - kTagPlus = 2
      · simp only [versionTabBarSelectedIndex, play, if_true, update, List.modify_modify_eq]
        rfl
      · simp only [versionTabBarSelectedIndex, play, if_true, if_false, update]

theorem modify_released (controller : MainViewController) (released : Released controller) (button : Nat) :
    (controller.bgImageView.modify button press).modify button release = controller.bgImageView := by
  rw [List.modify_modify_eq]
  apply List.ext_getElem?
  intro index
  rw [List.getElem?_modify]
  by_cases here : button = index
  · cases found : controller.bgImageView[index]? with
    | none => rfl
    | some sender =>
        have same : (release ∘ press) sender = sender := released.released sender (List.mem_of_getElem? found)
        simp only [here, if_true, Option.map_eq_map, Option.map_some, same]
  · simp [here]

-- The tapped button alone passes the guard on the tag, and is then let go.
theorem tap_changes_no_button (controller : MainViewController) (released : Released controller) (button : Nat)
    (inside : button < controller.bgImageView.length) :
    (tabBarItemSelected controller button).bgImageView = controller.bgImageView := by
  have pressedTags := (update_tags controller button press fun _ => rfl).symm ▸ released.tags
  obtain ⟨before, after, split⟩ := List.append_of_mem (List.mem_range.mpr inside)
  have once : (before ++ button :: after).Nodup := split ▸ List.nodup_range
  have apart := List.nodup_middle.mp once
  have others := not_or.mp (mt List.mem_append.mpr (List.nodup_cons.mp apart).1)
  have tapped := visit_tapped (update controller button press) button
  have visitedTags : ((visit button (update controller button press) button).bgImageView.map UIButton.tag).Nodup := by
    rw [tapped, update, modify_released controller released button]
    exact released.tags
  rw [tabBarItemSelected, split, List.foldl_append, visit_others _ pressedTags button before others.1,
    List.foldl_cons, visit_others _ visitedTags button after others.2, tapped, update,
    modify_released controller released button]

theorem released_after_tap (controller : MainViewController) (released : Released controller) (button : Nat)
    (inside : button < controller.bgImageView.length) : Released (tabBarItemSelected controller button) := by
  have kept := tap_changes_no_button controller released button inside
  exact ⟨kept.symm ▸ released.tags, kept.symm ▸ released.released⟩

theorem released_kept (before : MainViewController) (button : Nat) (after : MainViewController)
    (released : Released before) (taken : step before button = some after) : Released after := by
  obtain ⟨tappable, same⟩ := Option.ite_none_right_eq_some.mp taken
  cases same
  obtain ⟨sender, found, -⟩ := Option.map_eq_some_iff.mp tappable
  exact released_after_tap before released button (List.getElem?_eq_some_iff.mp found).1

theorem every_button_tappable (controller : MainViewController) (released : Released controller) (button : Nat)
    (inside : button < controller.bgImageView.length) :
    step controller button = some (tabBarItemSelected controller button) := by
  have found := List.getElem?_eq_getElem inside
  have same := released.released _ (List.getElem_mem inside)
  exact if_pos (by rw [found, Option.map_some, ← same]; rfl)

theorem released_not_right (controller : MainViewController) (released : Released controller) :
    ¬ SelectionRight controller := by
  intro right
  obtain ⟨button, listed, selected, -⟩ := right.single
  rw [← released.released button listed] at selected
  cases selected

def barButtons : List UIButton :=
  [⟨100, false, true, false⟩, ⟨101, false, true, false⟩, ⟨102, false, true, true⟩, ⟨103, false, true, false⟩,
    ⟨104, false, true, false⟩]

theorem bar_released (selectedIndex : Int) : Released ⟨barButtons, selectedIndex, 0⟩ where
  tags := (by decide : (barButtons.map UIButton.tag).Nodup)
  released := (by decide : ∀ button ∈ barButtons, release button = button)

theorem bar_created (selectedIndex : Int) :
    ∃ bar, createCustomTabBar ⟨[], selectedIndex, 0⟩ = some bar ∧ Released bar ∧ bar.bgImageView.length = 5 := by
  have released := bar_released selectedIndex
  have inside : 0 < barButtons.length := by decide
  have same := tap_changes_no_button _ released 0 inside
  exact ⟨_, rfl, released_after_tap _ released 0 inside, congrArg List.length same⟩

theorem selection_never_right (selectedIndex : Int) :
    ∃ bar, createCustomTabBar ⟨[], selectedIndex, 0⟩ = some bar ∧ ¬ SelectionRight bar ∧
      ∀ taps, Steps step (fun _ _ after => ¬ SelectionRight after) bar taps := by
  obtain ⟨bar, made, released, -⟩ := bar_created selectedIndex
  refine ⟨bar, made, released_not_right bar released, fun taps => ?_⟩
  refine steps_of_invariant step Released _ ?_ bar taps released
  intro before button after released taken
  have kept := released_kept before button after released taken
  exact ⟨released_not_right after kept, kept⟩

theorem tapped_tab_not_selected :
    ∃ bar, createCustomTabBar ⟨[], 0, 0⟩ = some bar ∧
      ¬ ∀ taps, Steps step (fun _ _ after => SelectionRight after) bar taps := by
  obtain ⟨bar, made, released, five⟩ := bar_created 0
  refine ⟨bar, made, fun all => ?_⟩
  have tapped := every_button_tappable bar released 1 (by omega)
  obtain ⟨right, -⟩ := all [1] _ tapped
  exact released_not_right _ (released_kept bar 1 _ released tapped) right

end CultivationMotain.SwiftEx.Tabs

import CultivationMotain.Flo.GraphView
import CultivationMotain.Library.Runs
import Mathlib.Algebra.Order.BigOperators.Group.List

set_option autoImplicit false

namespace CultivationMotain.Flo

open Foundation Runs

def maxInt : Int := 2 ^ 63 - 1

-- An Int that would overflow is a trap.
def add (first second : Int) : Option Int :=
  if -maxInt - 1 ≤ first + second ∧ first + second ≤ maxInt then some (first + second) else none

-- The labels by their texts, those of the days with their tags.
structure ViewController where
  counter : Int
  graphView : GraphView
  isGraphViewShowing : Bool
  counterLabel : String
  maxLabel : String
  averageWaterDrunk : String
  dayLabels : List (Nat × String)
deriving DecidableEq, Repr

-- The text of an Optional.
def described (count : Option Int) : String := count.elim "nil" fun count => "Optional(" ++ toString count ++ ")"

def days : List String := ["S", "S", "M", "T", "W", "T", "F"]

-- The first view with the tag is found, and without one the weekday stays. The
-- weekday counts down, from 0 to the last.
def labelDay (shown : List (Nat × String) × Nat) (tag : Nat) : Option (List (Nat × String) × Nat) :=
  match shown.1.findIdx? fun label => label.1 = tag with
  | none => some shown
  | some i =>
      let weekday := if shown.2 = 7 then 0 else shown.2
      days[weekday]?.map fun day =>
        (shown.1.set i (tag, day), if weekday = 0 then days.length - 1 else weekday - 1)

def labelDays (labels : List (Nat × String)) (weekday : Nat) : Option (List (Nat × String)) :=
  ((List.range' 1 days.length).reverse.foldlM labelDay (labels, weekday)).map Prod.fst

-- None is also the trap of a list without a second entry. The weekday is the
-- one the calendar gives for now.
def setupGraphDisplay (controller : ViewController) (weekday : Nat) : Option ViewController :=
  if 1 < controller.graphView.graphPoints.length then
    let graphPoints := controller.graphView.graphPoints.set 1 controller.counter
    (graphPoints.foldlM add 0).bind fun total =>
      (labelDays controller.dayLabels weekday).map fun dayLabels =>
        { controller with
          graphView := { controller.graphView with graphPoints := graphPoints }
          maxLabel := described graphPoints.max?
          averageWaterDrunk := toString (total.tdiv graphPoints.length)
          dayLabels := dayLabels }
  else none

def counterViewTap (controller : ViewController) (weekday : Nat) : Option ViewController :=
  if controller.isGraphViewShowing then some { controller with isGraphViewShowing := false }
  else (setupGraphDisplay controller weekday).map fun shown => { shown with isGraphViewShowing := true }

def changeCounter (counter : Int) (isAddbutton : Bool) : Option Int :=
  if isAddbutton then add counter 1 else some (if counter > 0 then counter - 1 else counter)

def changNumber (controller : ViewController) (isAddbutton : Bool) (weekday : Nat) : Option ViewController :=
  (changeCounter controller.counter isAddbutton).bind fun counter =>
    let changed := { controller with counter := counter, counterLabel := toString counter }
    if changed.isGraphViewShowing then counterViewTap changed weekday else some changed

inductive Tap where
  | changNumber (isAddbutton : Bool)
  | counterViewTap
deriving DecidableEq, Repr

-- A tap on the weekday it is made.
def step (controller : ViewController) (tap : Tap × Nat) : Option ViewController :=
  match tap.1 with
  | .changNumber isAddbutton => changNumber controller isAddbutton tap.2
  | .counterViewTap => counterViewTap controller tap.2

-- The counts that the graph starts with, and what the second can become.
def week (second : Int) : List Int := [4, second, 6, 4, 5, 8, 3]

structure FirstScreen (controller : ViewController) : Prop where
  counter : controller.counter = 4
  graphPoints : controller.graphView.graphPoints = week 2
  hidden : controller.isGraphViewShowing = false

-- The graph and its labels are about the counter as it stands.
structure ShowsWeek (controller : ViewController) : Prop where
  graphPoints : controller.graphView.graphPoints = week controller.counter
  maxLabel : controller.maxLabel = described (some (max 8 controller.counter))
  averageWaterDrunk : controller.averageWaterDrunk = toString ((30 + controller.counter) / 7)

def DrawnRight (controller : ViewController) : Prop :=
  ∀ rect : CGRect, 44 < rect.width → 110 < rect.height →
    ∃ drawing, drawRect controller.graphView rect = some drawing ∧ PlottedRight controller.graphView rect drawing

structure Charted (controller : ViewController) : Prop where
  counter : 0 ≤ controller.counter
  graphPoints : ∃ second, 0 ≤ second ∧ controller.graphView.graphPoints = week second
  shown : controller.isGraphViewShowing = true → ShowsWeek controller

theorem add_some (first second : Int) (least : 0 ≤ first + second) (most : first + second ≤ maxInt) :
    add first second = some (first + second) := by
  apply if_pos
  rw [maxInt] at most ⊢
  omega

theorem add_sum (first second total : Int) (added : add first second = some total) : total = first + second :=
  (Option.some.inj (Option.ite_none_right_eq_some.mp added).2).symm

theorem reduce_some (counts : List Int) (start : Int) (nonneg : ∀ count ∈ counts, 0 ≤ count) (least : 0 ≤ start)
    (most : start + counts.sum ≤ maxInt) : counts.foldlM add start = some (start + counts.sum) := by
  induction counts generalizing start with
  | nil => rw [List.foldlM_nil, List.sum_nil, Int.add_zero]; rfl
  | cons count rest ih =>
      have first := nonneg count List.mem_cons_self
      have others : ∀ other ∈ rest, 0 ≤ other := fun other later => nonneg other (List.mem_cons_of_mem _ later)
      have remaining := List.sum_nonneg others
      rw [List.sum_cons] at most ⊢
      rw [List.foldlM_cons, add_some start count (by omega) (by omega), ← Int.add_assoc]
      exact ih (start + count) others (by omega) (by omega)

theorem reduce_sum (counts : List Int) (start total : Int) (reduced : counts.foldlM add start = some total) :
    total = start + counts.sum := by
  induction counts generalizing start with
  | nil => rw [List.sum_nil, Int.add_zero]; exact (Option.some.inj reduced).symm
  | cons count rest ih =>
      rw [List.foldlM_cons] at reduced
      obtain ⟨sum, added, later⟩ := Option.bind_eq_some_iff.mp reduced
      rw [ih sum later, add_sum start count sum added, List.sum_cons, Int.add_assoc]

theorem week_set (second counter : Int) : (week second).set 1 counter = week counter := rfl

theorem week_sum (second : Int) : (week second).sum = 30 + second := by
  simp only [week, List.sum_cons, List.sum_nil]
  omega

theorem week_nonneg (second : Int) (nonneg : 0 ≤ second) : ∀ count ∈ week second, 0 ≤ count := by
  simp only [week, List.mem_cons, List.not_mem_nil, or_false]
  omega

theorem week_max (second : Int) : (week second).max? = some (max 8 second) := by
  simp only [week, List.max?_cons', List.foldl_cons, List.foldl_nil, Option.some.injEq]
  omega

theorem charted_drawn (controller : ViewController) (charted : Charted controller) : DrawnRight controller := by
  intro rect wide tall
  obtain ⟨second, nonneg, same⟩ := charted.graphPoints
  have scalable : Scalable controller.graphView := by
    refine ⟨?_, 4, ?_, by decide⟩ <;> rw [same]
    · exact Nat.le_add_left 2 5
    · exact List.mem_cons_self
  exact drawn_right controller.graphView rect wide tall (same ▸ week_nonneg second nonneg) scalable

theorem day_inside (weekday : Nat) (inside : weekday ≤ 7) : (if weekday = 7 then 0 else weekday) < days.length := by
  by_cases last : weekday = 7
  · rw [if_pos last]
    exact Nat.succ_pos 6
  · rw [if_neg last]
    exact Nat.lt_of_le_of_ne inside last

theorem day_before_inside (weekday : Nat) (inside : weekday < days.length) :
    (if weekday = 0 then days.length - 1 else weekday - 1) ≤ 7 := by
  by_cases first : weekday = 0
  · rw [if_pos first]
    exact Nat.le_succ 6
  · rw [if_neg first]
    exact (Nat.sub_le weekday 1).trans inside.le

theorem label_day_some (shown : List (Nat × String) × Nat) (tag : Nat) (weekday : shown.2 ≤ 7) :
    ∃ next, labelDay shown tag = some next ∧ next.2 ≤ 7 := by
  have inside := day_inside shown.2 weekday
  unfold labelDay
  cases shown.1.findIdx? fun label => label.1 = tag with
  | none => exact ⟨shown, rfl, weekday⟩
  | some i =>
      exact ⟨_, congrArg (Option.map _) (List.getElem?_eq_getElem inside), day_before_inside _ inside⟩

theorem label_days_some (labels : List (Nat × String)) (weekday : Nat) (inside : weekday ≤ 7) :
    ∃ dayLabels, labelDays labels weekday = some dayLabels := by
  obtain ⟨shown, ran, -⟩ := run_total labelDay (fun shown => shown.2 ≤ 7) label_day_some (labels, weekday)
    (List.range' 1 days.length).reverse inside
  exact ⟨shown.1, congrArg (Option.map Prod.fst) ((run_fold labelDay _ _).trans ran)⟩

theorem setup_shows (controller after : ViewController) (weekday : Nat) (charted : Charted controller)
    (shown : setupGraphDisplay controller weekday = some after) :
    ShowsWeek after ∧ after.counter = controller.counter := by
  obtain ⟨second, -, same⟩ := charted.graphPoints
  obtain ⟨-, displayed⟩ := Option.ite_none_right_eq_some.mp shown
  rw [same, week_set] at displayed
  obtain ⟨total, reduced, labelled⟩ := Option.bind_eq_some_iff.mp displayed
  obtain ⟨dayLabels, -, rfl⟩ := Option.map_eq_some_iff.mp labelled
  have sum := reduce_sum _ _ _ reduced
  rw [week_sum, Int.zero_add] at sum
  have least := charted.counter
  have average : total.tdiv 7 = (30 + controller.counter) / 7 := by
    rw [sum, Int.tdiv_eq_ediv_of_nonneg (by omega)]
  exact ⟨⟨rfl, congrArg described (week_max controller.counter), congrArg toString average⟩, rfl⟩

theorem setup_taken (controller : ViewController) (weekday : Nat) (charted : Charted controller)
    (room : controller.counter + 30 ≤ maxInt) (inside : weekday ≤ 7) :
    ∃ after, setupGraphDisplay controller weekday = some after := by
  obtain ⟨second, -, same⟩ := charted.graphPoints
  have reduced := reduce_some (week controller.counter) 0 (week_nonneg _ charted.counter) (Int.le_refl 0) (by
    rw [week_sum]
    omega)
  obtain ⟨dayLabels, labelled⟩ := label_days_some controller.dayLabels weekday inside
  have several : 1 < (week second).length := Nat.le_add_left 2 5
  rw [setupGraphDisplay, same, if_pos several]
  exact ⟨_, Option.bind_eq_some_iff.mpr ⟨_, reduced, congrArg (Option.map _) labelled⟩⟩

theorem shows_charted (controller : ViewController) (counter : 0 ≤ controller.counter) (shows : ShowsWeek controller) :
    Charted controller := ⟨counter, ⟨controller.counter, counter, shows.graphPoints⟩, fun _ => shows⟩

theorem tap_charted (controller after : ViewController) (weekday : Nat) (charted : Charted controller)
    (tapped : counterViewTap controller weekday = some after) :
    Charted after ∧ after.counter = controller.counter := by
  by_cases showing : controller.isGraphViewShowing = true
  · cases (if_pos showing).symm.trans tapped
    exact ⟨⟨charted.counter, charted.graphPoints, nofun⟩, rfl⟩
  · obtain ⟨shown, displayed, rfl⟩ := Option.map_eq_some_iff.mp ((if_neg showing).symm.trans tapped)
    obtain ⟨shows, same⟩ := setup_shows controller shown weekday charted displayed
    exact ⟨shows_charted _ (same ▸ charted.counter) ⟨shows.graphPoints, shows.maxLabel, shows.averageWaterDrunk⟩, same⟩

theorem tap_taken (controller : ViewController) (weekday : Nat) (charted : Charted controller)
    (room : controller.counter + 30 ≤ maxInt) (inside : weekday ≤ 7) :
    ∃ after, counterViewTap controller weekday = some after := by
  by_cases showing : controller.isGraphViewShowing = true
  · exact ⟨_, if_pos showing⟩
  · obtain ⟨shown, displayed⟩ := setup_taken controller weekday charted room inside
    exact ⟨_, (if_neg showing).trans (congrArg _ displayed)⟩

theorem counter_bounds (counter changed : Int) (isAddbutton : Bool) (least : 0 ≤ counter)
    (counted : changeCounter counter isAddbutton = some changed) : 0 ≤ changed ∧ changed ≤ counter + 1 := by
  cases isAddbutton with
  | true =>
      have sum := add_sum counter 1 changed counted
      omega
  | false =>
      cases counted
      by_cases positive : counter > 0
      · rw [if_pos positive]
        omega
      · rw [if_neg positive]
        omega

theorem counter_taken (counter : Int) (isAddbutton : Bool) (least : 0 ≤ counter) (room : counter + 1 ≤ maxInt) :
    ∃ changed, changeCounter counter isAddbutton = some changed := by
  cases isAddbutton with
  | true => exact ⟨counter + 1, add_some counter 1 (by omega) room⟩
  | false => exact ⟨_, rfl⟩

-- A change of the number hides the graph, so that a graph on the screen is
-- about the counter still.
theorem change_charted (controller after : ViewController) (isAddbutton : Bool) (weekday : Nat)
    (charted : Charted controller) (changed : changNumber controller isAddbutton weekday = some after) :
    Charted after ∧ after.counter ≤ controller.counter + 1 := by
  obtain ⟨counter, counted, next⟩ := Option.bind_eq_some_iff.mp changed
  obtain ⟨least, most⟩ := counter_bounds controller.counter counter isAddbutton charted.counter counted
  by_cases showing : controller.isGraphViewShowing = true
  · cases (if_pos showing).symm.trans ((if_pos showing).symm.trans next)
    exact ⟨⟨least, charted.graphPoints, nofun⟩, most⟩
  · cases (if_neg showing).symm.trans next
    exact ⟨⟨least, charted.graphPoints, fun shown => absurd shown showing⟩, most⟩

theorem change_taken (controller : ViewController) (isAddbutton : Bool) (weekday : Nat) (charted : Charted controller)
    (room : controller.counter + 1 ≤ maxInt) : ∃ after, changNumber controller isAddbutton weekday = some after := by
  obtain ⟨counter, counted⟩ := counter_taken controller.counter isAddbutton charted.counter room
  by_cases showing : controller.isGraphViewShowing = true
  · exact ⟨_, Option.bind_eq_some_iff.mpr ⟨counter, counted, (if_pos showing).trans (if_pos showing)⟩⟩
  · exact ⟨_, Option.bind_eq_some_iff.mpr ⟨counter, counted, if_neg showing⟩⟩

theorem step_charted (controller after : ViewController) (tap : Tap × Nat) (charted : Charted controller)
    (taken : step controller tap = some after) : Charted after ∧ after.counter ≤ controller.counter + 1 := by
  obtain ⟨tap, weekday⟩ := tap
  cases tap with
  | changNumber isAddbutton => exact change_charted controller after isAddbutton weekday charted taken
  | counterViewTap =>
      obtain ⟨kept, same⟩ := tap_charted controller after weekday charted taken
      exact ⟨kept, by omega⟩

theorem step_taken (controller : ViewController) (tap : Tap × Nat) (charted : Charted controller)
    (room : controller.counter + 30 ≤ maxInt) (inside : tap.2 ≤ 7) : ∃ after, step controller tap = some after := by
  obtain ⟨tap, weekday⟩ := tap
  cases tap with
  | changNumber isAddbutton => exact change_taken controller isAddbutton weekday charted (by omega)
  | counterViewTap => exact tap_taken controller weekday charted room inside

theorem run_taken (controller : ViewController) (taps : List (Tap × Nat)) (charted : Charted controller)
    (room : controller.counter + taps.length + 30 ≤ maxInt) (inside : ∀ tap ∈ taps, tap.2 ≤ 7) :
    ∃ final, run step controller taps = some final := by
  induction taps generalizing controller with
  | nil => exact ⟨controller, rfl⟩
  | cons tap rest ih =>
      rw [List.length_cons] at room
      obtain ⟨after, taken⟩ := step_taken controller tap charted (by omega) (inside tap List.mem_cons_self)
      obtain ⟨kept, most⟩ := step_charted controller after tap charted taken
      obtain ⟨final, ran⟩ := ih after kept (by omega) fun other later => inside other (List.mem_cons_of_mem _ later)
      exact ⟨final, Option.bind_eq_some_iff.mpr ⟨after, taken, ran⟩⟩

theorem first_charted (controller : ViewController) (first : FirstScreen controller) : Charted controller := by
  refine ⟨?_, ⟨2, by decide, first.graphPoints⟩, fun showing => absurd showing ?_⟩
  · rw [first.counter]
    decide
  · rw [first.hidden]
    exact Bool.false_ne_true

theorem week_drawn_along (controller : ViewController) (taps : List (Tap × Nat)) (first : FirstScreen controller)
    (few : taps.length + 34 ≤ maxInt) (weekdays : ∀ tap ∈ taps, 1 ≤ tap.2 ∧ tap.2 ≤ 7) :
    (∃ final, run step controller taps = some final) ∧
      Steps step (fun _ _ after => (after.isGraphViewShowing = true → ShowsWeek after) ∧ DrawnRight after)
        controller taps := by
  have charted := first_charted controller first
  constructor
  · refine run_taken controller taps charted ?_ fun tap made => (weekdays tap made).2
    rw [first.counter]
    omega
  · refine steps_of_invariant step Charted _ ?_ controller taps charted
    intro before tap after charted taken
    have kept := (step_charted before after tap charted taken).1
    exact ⟨⟨kept.shown, charted_drawn after kept⟩, kept⟩

-- The screen of the storyboard, where two labels have the tag 3.
def mainScreen : ViewController where
  counter := 4
  graphView := ⟨week 2, ⟨0, 0, 300, 250⟩⟩
  isGraphViewShowing := false
  counterLabel := "8"
  maxLabel := "99"
  averageWaterDrunk := "2"
  dayLabels := [(1, "M"), (2, "M"), (5, "M"), (6, "M"), (7, "M"), (3, "M"), (3, "M")]

-- A glass is added, the graph shown, another glass added, which hides the
-- graph, and the graph shown again, on a Thursday.
theorem two_glasses_drawn :
    ∃ final, run step mainScreen
        [(.changNumber true, 5), (.counterViewTap, 5), (.changNumber true, 5), (.counterViewTap, 5)] = some final ∧
      ShowsWeek final ∧ DrawnRight final ∧ final.counter = 6 := by
  obtain ⟨-, all⟩ := week_drawn_along mainScreen
    [(.changNumber true, 5), (.counterViewTap, 5), (.changNumber true, 5), (.counterViewTap, 5)]
    ⟨rfl, rfl, rfl⟩ (by decide) (by decide)
  have last := ((((all _ rfl).2 _ rfl).2 _ rfl).2 _ rfl).1
  exact ⟨_, rfl, last.1 rfl, last.2, rfl⟩

end CultivationMotain.Flo

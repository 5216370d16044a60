import CultivationMotain.Foundation.Geometry
import CultivationMotain.Library.Easing
import CultivationMotain.Library.Runs
import Mathlib.Tactic.NormNum

set_option autoImplicit false

namespace CultivationMotain.LearnAnimationFun

open Easing Foundation Runs

def firstPiece (t : Rat) : Rat := (121 * t * t) / 16

def secondPiece (t : Rat) : Rat := (363 / 40 * t * t) - (99 / 10 * t) + 17 / 5

def thirdPiece (t : Rat) : Rat := (4356 / 361 * t * t) - (35442 / 1805 * t) + 16061 / 1805

def fourthPiece (t : Rat) : Rat := (54 / 5 * t * t) - (513 / 25 * t) + 268 / 25

-- The single precision of the code is taken to be exact.
def bounceEaseOut (t : Rat) : Rat :=
  if t < 4 / 11 then firstPiece t
  else if t < 8 / 11 then secondPiece t
  else if t < 9 / 10 then thirdPiece t
  else fourthPiece t

def interpolate (start target time : Rat) : Rat := (target - start) * time + start

-- A value that wraps a point, or any other object.
inductive AnyObject where
  | point (value : CGPoint)
  | object (reference : Nat)
deriving DecidableEq, Repr

-- None is an exception.
def CGPointValue : AnyObject → Option CGPoint
  | .point value => some value
  | .object _ => none

def interpolatePoint (start target : CGPoint) (time : Rat) : CGPoint :=
  ⟨interpolate start.x target.x time, interpolate start.y target.y time⟩

def interpolateFromValue (fromValue toValue : AnyObject) (time : Rat) : Option AnyObject :=
  match fromValue with
  | .point start => (CGPointValue toValue).map fun target => .point (interpolatePoint start target time)
  | .object _ => some (if time < 1 / 2 then fromValue else toValue)

-- timer tells whether a timer is scheduled, center is the place of the ball.
structure ViewController where
  duration : Rat
  timeOffset : Rat
  fromValue : AnyObject
  toValue : AnyObject
  lastStep : Rat
  timer : Bool
  center : CGPoint
deriving DecidableEq, Repr

-- The part that the two steps share.
def advance (controller : ViewController) (passed : Rat) : Option ViewController :=
  let timeOffset := min (controller.timeOffset + passed) controller.duration
  let time := bounceEaseOut (timeOffset / controller.duration)
  ((interpolateFromValue controller.fromValue controller.toValue time).bind CGPointValue).map fun center =>
    { controller with
      timeOffset := timeOffset
      center := center
      timer := if controller.duration ≤ timeOffset then false else controller.timer }

def stepUsingCADisplayLink (controller : ViewController) (nowStep : Rat) : Option ViewController :=
  advance { controller with lastStep := nowStep } (nowStep - controller.lastStep)

def step (controller : ViewController) : Option ViewController := advance controller (1 / 60)

-- The screen as the animation of a ball between two points begins. The timer
-- is an alternative that the code has turned off.
def bounce (start target : CGPoint) (now : Rat) (timer : Bool) : ViewController :=
  ⟨1, 0, .point start, .point target, now, timer, start⟩

def testBallBounceUsingSeparateFrame (now : Rat) : ViewController := bounce ⟨150, 32⟩ ⟨150, 268⟩ now false

inductive App where
  | running (controller : ViewController)
  | raised
deriving DecidableEq, Repr

inductive Firing where
  | displayLink (nowStep : Rat)
  | timer
deriving DecidableEq, Repr

def continued : Option ViewController → App
  | some controller => .running controller
  | none => .raised

-- The clock does not go back, and only a scheduled timer fires.
def fire : App → Firing → Option App
  | .raised, _ => none
  | .running controller, .displayLink nowStep =>
      if controller.lastStep ≤ nowStep then some (continued (stepUsingCADisplayLink controller nowStep)) else none
  | .running controller, .timer => if controller.timer then some (continued (step controller)) else none

-- What the firings have counted: the time of the last display link and the
-- time passed in all.
structure Stopwatch where
  lastStep : Rat
  elapsed : Rat
deriving DecidableEq, Repr

def Stopwatch.count (watch : Stopwatch) : Firing → Stopwatch
  | .displayLink nowStep => ⟨nowStep, watch.elapsed + (nowStep - watch.lastStep)⟩
  | .timer => ⟨watch.lastStep, watch.elapsed + 1 / 60⟩

def Between (start target place : CGPoint) : Prop :=
  (min start.x target.x ≤ place.x ∧ place.x ≤ max start.x target.x) ∧
    min start.y target.y ≤ place.y ∧ place.y ≤ max start.y target.y

-- The ball is on its way and has arrived once the duration is over.
structure OnTheWay (start target : CGPoint) (elapsed : Rat) (controller : ViewController) : Prop where
  between : Between start target controller.center
  arrives : controller.duration ≤ elapsed → controller.center = target

structure EasesOut (ease : Rat → Rat) : Prop where
  within : ∀ t, 0 ≤ t → t ≤ 1 → 0 ≤ ease t ∧ ease t ≤ 1
  start : ease 0 = 0
  finish : ease 1 = 1

-- The function is its piece up to and including both ends of the interval.
structure Joined (ease : Rat → Rat) : Prop where
  first : ∀ t, t ≤ 4 / 11 → ease t = firstPiece t
  second : ∀ t, 4 / 11 ≤ t → t ≤ 8 / 11 → ease t = secondPiece t
  third : ∀ t, 8 / 11 ≤ t → t ≤ 9 / 10 → ease t = thirdPiece t
  fourth : ∀ t, 9 / 10 ≤ t → ease t = fourthPiece t

theorem first_piece_arc (t : Rat) : firstPiece t = arc (121 / 16) (-4 / 11) (4 / 11) t := by
  rw [firstPiece, arc]
  ring

theorem second_piece_arc (t : Rat) : secondPiece t = arc (363 / 40) (4 / 11) (8 / 11) t := by
  rw [secondPiece, arc]
  ring

theorem third_piece_arc (t : Rat) : thirdPiece t = arc (4356 / 361) (8 / 11) (9 / 10) t := by
  rw [thirdPiece, arc]
  ring

theorem fourth_piece_arc (t : Rat) : fourthPiece t = arc (54 / 5) (9 / 10) 1 t := by
  rw [fourthPiece, arc]
  ring

theorem first_second_join : firstPiece (4 / 11) = secondPiece (4 / 11) := by
  rw [first_piece_arc, second_piece_arc, arc_left, arc_right]

theorem second_third_join : secondPiece (8 / 11) = thirdPiece (8 / 11) := by
  rw [second_piece_arc, third_piece_arc, arc_left, arc_right]

theorem third_fourth_join : thirdPiece (9 / 10) = fourthPiece (9 / 10) := by
  rw [third_piece_arc, fourth_piece_arc, arc_left, arc_right]

theorem bounce_second (t : Rat) (after : 4 / 11 ≤ t) (before : t < 8 / 11) : bounceEaseOut t = secondPiece t := by
  rw [bounceEaseOut, if_neg (not_lt.mpr after), if_pos before]

theorem bounce_third (t : Rat) (after : 8 / 11 ≤ t) (before : t < 9 / 10) : bounceEaseOut t = thirdPiece t := by
  have late : (4 / 11 : Rat) ≤ t := le_trans (by norm_num) after
  rw [bounceEaseOut, if_neg (not_lt.mpr late), if_neg (not_lt.mpr after), if_pos before]

theorem bounce_fourth (t : Rat) (after : 9 / 10 ≤ t) : bounceEaseOut t = fourthPiece t := by
  have late : (4 / 11 : Rat) ≤ t := le_trans (by norm_num) after
  have later : (8 / 11 : Rat) ≤ t := le_trans (by norm_num) after
  rw [bounceEaseOut, if_neg (not_lt.mpr late), if_neg (not_lt.mpr later), if_neg (not_lt.mpr after)]

-- Each piece passes into the next at its end.
theorem bounce_joined : Joined bounceEaseOut where
  first t before := by
    rcases before.lt_or_eq with inside | rfl
    · rw [bounceEaseOut, if_pos inside]
    · rw [first_second_join, bounce_second _ (le_refl _) (by norm_num)]
  second t after before := by
    rcases before.lt_or_eq with inside | rfl
    · exact bounce_second t after inside
    · rw [second_third_join, bounce_third _ (le_refl _) (by norm_num)]
  third t after before := by
    rcases before.lt_or_eq with inside | rfl
    · exact bounce_third t after inside
    · rw [third_fourth_join, bounce_fourth _ (le_refl _)]
  fourth := bounce_fourth

-- Every piece reaches one at both its ends and dips less the shorter it is.
theorem bounce_within (t : Rat) (least : 0 ≤ t) (most : t ≤ 1) : 0 ≤ bounceEaseOut t ∧ bounceEaseOut t ≤ 1 := by
  rcases le_total t (4 / 11) with first | after_first
  · rw [bounce_joined.first t first, first_piece_arc]
    exact arc_within _ _ _ t (by norm_num) (by norm_num) (by linarith) first
  rcases le_total t (8 / 11) with second | after_second
  · rw [bounce_joined.second t after_first second, second_piece_arc]
    exact arc_within _ _ _ t (by norm_num) (by norm_num) after_first second
  rcases le_total t (9 / 10) with third | after_third
  · rw [bounce_joined.third t after_second third, third_piece_arc]
    exact arc_within _ _ _ t (by norm_num) (by norm_num) after_second third
  · rw [bounce_joined.fourth t after_third, fourth_piece_arc]
    exact arc_within _ _ _ t (by norm_num) (by norm_num) after_third most

theorem bounce_start : bounceEaseOut 0 = 0 := by
  rw [bounce_joined.first 0 (by norm_num), firstPiece, mul_zero, zero_div]

theorem bounce_finish : bounceEaseOut 1 = 1 := by
  rw [bounce_fourth 1 (by norm_num), fourth_piece_arc, arc_right]

theorem bounce_eases_out : EasesOut bounceEaseOut := ⟨bounce_within, bounce_start, bounce_finish⟩

theorem interpolate_point_between (start target : CGPoint) (time : Rat) (least : 0 ≤ time) (most : time ≤ 1) :
    Between start target (interpolatePoint start target time) :=
  ⟨line_between start.x target.x time least most, line_between start.y target.y time least most⟩

theorem interpolate_zero (start target : CGPoint) : interpolatePoint start target 0 = start := by
  simp only [interpolatePoint, interpolate, mul_zero, zero_add]

theorem interpolate_one (start target : CGPoint) : interpolatePoint start target 1 = target := by
  simp only [interpolatePoint, interpolate, mul_one, sub_add_cancel]

-- A screen whose ball is where the time that the firings have counted puts it.
structure Bouncing (start target : CGPoint) (watch : Stopwatch) (controller : ViewController) : Prop where
  fromValue : controller.fromValue = .point start
  toValue : controller.toValue = .point target
  positive : 0 < controller.duration
  counted : 0 ≤ watch.elapsed
  lastStep : controller.lastStep = watch.lastStep
  timeOffset : controller.timeOffset = min watch.elapsed controller.duration
  center : controller.center =
    interpolatePoint start target (bounceEaseOut (controller.timeOffset / controller.duration))

def Animated (start target : CGPoint) (watch : Stopwatch) : App → Prop
  | .running controller => Bouncing start target watch controller
  | .raised => False

theorem bounce_bouncing (start target : CGPoint) (now : Rat) (timer : Bool) :
    Bouncing start target ⟨now, 0⟩ (bounce start target now timer) := by
  refine ⟨rfl, rfl, one_pos, le_refl 0, rfl, (min_eq_left zero_le_one).symm, ?_⟩
  change start = interpolatePoint start target (bounceEaseOut (0 / 1))
  rw [zero_div, bounce_start, interpolate_zero]

-- Counting up to the duration and then on is counting up to the duration.
theorem min_add_min (elapsed passed duration : Rat) (nonneg : 0 ≤ passed) :
    min (min elapsed duration + passed) duration = min (elapsed + passed) duration := by
  rw [min_add, min_assoc, min_eq_right (le_add_of_nonneg_right nonneg)]

-- What a step between two points does: it raises no exception.
theorem advance_point (start target : CGPoint) (controller : ViewController) (passed : Rat)
    (fromValue : controller.fromValue = .point start) (toValue : controller.toValue = .point target) :
    let timeOffset := min (controller.timeOffset + passed) controller.duration
    advance controller passed = some { controller with
      timeOffset := timeOffset
      center := interpolatePoint start target (bounceEaseOut (timeOffset / controller.duration))
      timer := if controller.duration ≤ timeOffset then false else controller.timer } := by
  simp only [advance, fromValue, toValue, interpolateFromValue, CGPointValue, Option.map_some, Option.bind_some]

theorem advance_bouncing (start target : CGPoint) (watch : Stopwatch) (controller : ViewController) (passed : Rat)
    (bouncing : Bouncing start target watch controller) (nonneg : 0 ≤ passed) :
    ∃ next, advance controller passed = some next ∧
      Bouncing start target ⟨watch.lastStep, watch.elapsed + passed⟩ next := by
  have offset : min (controller.timeOffset + passed) controller.duration =
      min (watch.elapsed + passed) controller.duration := by
    rw [bouncing.timeOffset, min_add_min _ _ _ nonneg]
  refine ⟨_, advance_point start target controller passed bouncing.fromValue bouncing.toValue, ?_⟩
  exact ⟨bouncing.fromValue, bouncing.toValue, bouncing.positive, add_nonneg bouncing.counted nonneg,
    bouncing.lastStep, offset, rfl⟩

theorem fire_animated (start target : CGPoint) (watch : Stopwatch) (app : App) (firing : Firing) (next : App)
    (animated : Animated start target watch app) (fired : fire app firing = some next) :
    Animated start target (watch.count firing) next := by
  cases app with
  | raised => cases fired
  | running controller =>
      have bouncing : Bouncing start target watch controller := animated
      cases firing with
      | displayLink nowStep =>
          by_cases later : controller.lastStep ≤ nowStep
          · have relinked : Bouncing start target ⟨nowStep, watch.elapsed⟩ { controller with lastStep := nowStep } :=
              { bouncing with lastStep := rfl }
            obtain ⟨moved, stepped, kept⟩ := advance_bouncing start target _ _ _ relinked (sub_nonneg.mpr later)
            rw [fire, if_pos later, stepUsingCADisplayLink, stepped] at fired
            cases fired
            rwa [bouncing.lastStep] at kept
          · rw [fire, if_neg later] at fired
            cases fired
      | timer =>
          obtain ⟨moved, stepped, kept⟩ :=
            advance_bouncing start target watch controller (1 / 60) bouncing (by norm_num)
          cases scheduled : controller.timer with
          | false => simp [fire, scheduled] at fired
          | true =>
              rw [fire, if_pos scheduled, step, stepped] at fired
              cases fired
              exact kept

theorem bouncing_on_the_way (start target : CGPoint) (watch : Stopwatch) (controller : ViewController)
    (bouncing : Bouncing start target watch controller) : OnTheWay start target watch.elapsed controller := by
  have offset : 0 ≤ controller.timeOffset ∧ controller.timeOffset ≤ controller.duration := by
    rw [bouncing.timeOffset]
    exact ⟨le_min bouncing.counted bouncing.positive.le, min_le_right _ _⟩
  have eased := bounce_within (controller.timeOffset / controller.duration)
    (div_nonneg offset.1 bouncing.positive.le) (div_le_one_of_le₀ offset.2 bouncing.positive.le)
  constructor
  · rw [bouncing.center]
    exact interpolate_point_between start target _ eased.1 eased.2
  · intro passed
    have ended : controller.timeOffset = controller.duration := by rw [bouncing.timeOffset, min_eq_right passed]
    rw [bouncing.center, ended, div_self bouncing.positive.ne', bounce_finish, interpolate_one]

theorem run_animated (start target : CGPoint) (watch : Stopwatch) (app final : App) (firings : List Firing)
    (animated : Animated start target watch app) (ran : run fire app firings = some final) :
    Animated start target (firings.foldl Stopwatch.count watch) final :=
  run_ghost fire Stopwatch.count (Animated start target)
    (fun watch app firing next animated fired => fire_animated start target watch app firing next animated fired)
    watch app final firings ran animated

theorem run_on_the_way (start target : CGPoint) (now : Rat) (timer : Bool) (firings : List Firing) (final : App)
    (ran : run fire (.running (bounce start target now timer)) firings = some final) :
    ∃ controller, final = .running controller ∧
      OnTheWay start target (firings.foldl Stopwatch.count ⟨now, 0⟩).elapsed controller := by
  have animated := run_animated start target ⟨now, 0⟩ (.running (bounce start target now timer)) final firings
    (bounce_bouncing start target now timer) ran
  cases final with
  | raised => cases animated
  | running controller => exact ⟨controller, rfl, bouncing_on_the_way start target _ controller animated⟩

-- The ball eases out along the line between its points whatever fires when.
theorem ball_bounces_out :
    EasesOut bounceEaseOut ∧ Joined bounceEaseOut ∧
      firstPiece (4 / 11) = secondPiece (4 / 11) ∧ secondPiece (8 / 11) = thirdPiece (8 / 11) ∧
      thirdPiece (9 / 10) = fourthPiece (9 / 10) ∧
      ∀ start target now timer firings final,
        run fire (.running (bounce start target now timer)) firings = some final →
        ∃ controller, final = .running controller ∧
          OnTheWay start target (firings.foldl Stopwatch.count ⟨now, 0⟩).elapsed controller := by
  refine ⟨bounce_eases_out, bounce_joined, first_second_join, second_third_join, third_fourth_join, ?_⟩
  intro start target now timer firings final ran
  exact run_on_the_way start target now timer firings final ran

def landed : ViewController := ⟨1, 1, .point ⟨150, 32⟩, .point ⟨150, 268⟩, 5 / 4, false, ⟨150, 268⟩⟩

theorem test_ball_lands :
    run fire (.running (testBallBounceUsingSeparateFrame 0)) [.displayLink (1 / 2), .displayLink (5 / 4)] =
      some (.running landed) ∧ landed.center = ⟨150, 268⟩ := by
  have ran : run fire (.running (testBallBounceUsingSeparateFrame 0)) [.displayLink (1 / 2), .displayLink (5 / 4)] =
      some (.running landed) := by
    decide +kernel
  obtain ⟨-, -, -, -, -, runs⟩ := ball_bounces_out
  obtain ⟨controller, same, way⟩ := runs _ _ _ _ _ _ ran
  cases same
  exact ⟨ran, way.arrives (by decide +kernel)⟩

end CultivationMotain.LearnAnimationFun

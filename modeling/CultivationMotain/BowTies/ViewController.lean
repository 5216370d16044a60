import CultivationMotain.Library.Runs
import Mathlib.Algebra.Order.Ring.Rat
import Mathlib.Data.List.Basic
import Mathlib.Tactic.NormNum

set_option autoImplicit false

namespace CultivationMotain.BowTies

open Runs

-- The attributes that the screen changes or shows as text.
structure Bowtie where
  name : Option String
  isFavorite : Bool
  lastWorn : Int
  rating : Rat
  timesWorn : Int
deriving DecidableEq, Repr

structure ManagedObjectContext where
  store : List Bowtie
  objects : List Bowtie
deriving DecidableEq, Repr

-- currentBowtie is the place of the bow tie among the context's objects;
-- populated is what the labels show, ratingAlert whether the user is asked.
structure ViewController where
  managedContex : ManagedObjectContext
  currentBowtie : Nat
  populated : Option Bowtie
  ratingAlert : Bool
deriving DecidableEq, Repr

def NSValidationMultipleErrorsError : Int := 1560

def NSValidationNumberTooLargeError : Int := 1610

def NSValidationNumberTooSmallError : Int := 1620

def timesWornMax : Int := 2147483647

-- The bounds of the data model.
def ratingMin : Rat := 0

def ratingMax : Rat := 6

def validateRating (bowtie : Bowtie) : Option Int :=
  if bowtie.rating < ratingMin then some NSValidationNumberTooSmallError
  else if ratingMax < bowtie.rating then some NSValidationNumberTooLargeError
  else none

def save (context : ManagedObjectContext) : Except Int ManagedObjectContext :=
  match context.objects.filterMap validateRating with
  | [] => .ok { context with store := context.objects }
  | [code] => .error code
  | _ => .error NSValidationMultipleErrorsError

def current (controller : ViewController) : Option Bowtie :=
  controller.managedContex.objects[controller.currentBowtie]?

def persisted (controller : ViewController) : Option Bowtie :=
  controller.managedContex.store[controller.currentBowtie]?

def setCurrent (controller : ViewController) (bowtie : Bowtie) : ViewController :=
  { controller with managedContex := { controller.managedContex with
      objects := controller.managedContex.objects.set controller.currentBowtie bowtie } }

def populate (controller : ViewController) (bowtie : Bowtie) : ViewController :=
  { controller with populated := some bowtie }

def rate (controller : ViewController) : ViewController := { controller with ratingAlert := true }

-- None is a trap: a missing bow tie is unwrapped, or the count overflows.
def wear (controller : ViewController) (now : Int) : Option ViewController :=
  match current controller with
  | none => none
  | some bowtie =>
      if timesWornMax < bowtie.timesWorn + 1 then none
      else
        let bowtie := { bowtie with timesWorn := bowtie.timesWorn + 1, lastWorn := now }
        let worn := setCurrent controller bowtie
        match save worn.managedContex with
        | .ok context => some (populate { worn with managedContex := context } bowtie)
        | .error _ => some (populate worn bowtie)

variable (doubleValue : String → Rat)

def setRating (controller : ViewController) (bowtie : Bowtie) (numberic : String) : ViewController :=
  setCurrent controller { bowtie with rating := doubleValue numberic }

def updateRating (controller : ViewController) (numberic : String) : Option ViewController :=
  match current controller with
  | none => none
  | some bowtie =>
      let rated := setRating doubleValue controller bowtie numberic
      match save rated.managedContex with
      | .ok context =>
          some (populate { rated with managedContex := context } { bowtie with rating := doubleValue numberic })
      | .error code =>
          if code = NSValidationNumberTooLargeError ∨ code = NSValidationNumberTooSmallError then some (rate rated)
          else some rated

inductive App where
  | running (controller : ViewController)
  | trapped
deriving DecidableEq, Repr

inductive Event where
  | wear (now : Int)
  | updateRating (numberic : String)
deriving DecidableEq, Repr

def continued : Option ViewController → App
  | some controller => .running controller
  | none => .trapped

-- The alert is gone by the time its save action updates the rating.
def step : App → Event → Option App
  | .trapped, _ => none
  | .running controller, .wear now => some (continued (wear controller now))
  | .running controller, .updateRating numberic =>
      some (continued (updateRating doubleValue { controller with ratingAlert := false } numberic))

def Valid (bowtie : Bowtie) : Prop := ratingMin ≤ bowtie.rating ∧ bowtie.rating ≤ ratingMax

-- The state after a save that succeeded.
structure SavedState (controller : ViewController) : Prop where
  shown : (current controller).isSome
  saved : controller.managedContex.store = controller.managedContex.objects
  valid : ∀ bowtie ∈ controller.managedContex.objects, Valid bowtie

def Saves (context : ManagedObjectContext) : Prop := ∃ saved, save context = .ok saved

-- A wear counts once in the store, and a rating that is not saved is not kept.
def RatingFailureHarmless (before : App) (event : Event) (after : App) : Prop :=
  ∀ controller, before = .running controller → ∃ next, after = .running next ∧
    match event with
    | .wear _ => ∃ old new, persisted controller = some old ∧ persisted next = some new ∧
        new.timesWorn = old.timesWorn + 1
    | .updateRating numberic => ∀ bowtie, current controller = some bowtie →
        ¬ Saves (setRating doubleValue controller bowtie numberic).managedContex → current next = persisted next

def InRange (before : App) (event : Event) (_ : App) : Prop :=
  ∀ controller, before = .running controller →
    match event with
    | .wear _ => ∀ bowtie, current controller = some bowtie → bowtie.timesWorn < timesWornMax
    | .updateRating numberic => ratingMin ≤ doubleValue numberic ∧ doubleValue numberic ≤ ratingMax

theorem validate_none_iff (bowtie : Bowtie) : validateRating bowtie = none ↔ Valid bowtie := by
  unfold validateRating Valid
  by_cases small : bowtie.rating < ratingMin
  · simp [small]
  · by_cases large : ratingMax < bowtie.rating
    · simp [small, large]
    · simp [small, large, not_lt.mp small, not_lt.mp large]

-- A save fails exactly when some rating is outside its range.
theorem saves_iff (context : ManagedObjectContext) : Saves context ↔ ∀ bowtie ∈ context.objects, Valid bowtie := by
  have nothing : context.objects.filterMap validateRating = [] ↔ ∀ bowtie ∈ context.objects, Valid bowtie := by
    rw [List.filterMap_eq_nil_iff]
    exact forall₂_congr fun bowtie _ => validate_none_iff bowtie
  rw [← nothing]
  cases errors : context.objects.filterMap validateRating with
  | nil => simp [Saves, save, errors]
  | cons code others => cases others <;> simp [Saves, save, errors]

theorem save_valid (context : ManagedObjectContext) (valid : ∀ bowtie ∈ context.objects, Valid bowtie) :
    save context = .ok ⟨context.objects, context.objects⟩ := by
  have nothing : context.objects.filterMap validateRating = [] :=
    List.filterMap_eq_nil_iff.mpr fun bowtie listed => (validate_none_iff bowtie).mpr (valid bowtie listed)
  rw [save, nothing]

theorem set_current_valid (controller : ViewController) (bowtie : Bowtie) (saved : SavedState controller)
    (valid : Valid bowtie) : ∀ other ∈ (setCurrent controller bowtie).managedContex.objects, Valid other := by
  intro other listed
  cases List.mem_or_eq_of_mem_set listed with
  | inl kept => exact saved.valid other kept
  | inr new => exact new ▸ valid

theorem current_set (controller : ViewController) (bowtie : Bowtie) (saved : SavedState controller) :
    (controller.managedContex.objects.set controller.currentBowtie bowtie)[controller.currentBowtie]? =
      some bowtie := by
  have inside : controller.currentBowtie < controller.managedContex.objects.length := by
    simpa [current] using saved.shown
  exact List.getElem?_set_self inside

-- What a successful save of a changed bow tie leaves.
def committed (controller : ViewController) (bowtie : Bowtie) : ViewController :=
  let objects := controller.managedContex.objects.set controller.currentBowtie bowtie
  populate { controller with managedContex := ⟨objects, objects⟩ } bowtie

theorem committed_saved (controller : ViewController) (bowtie : Bowtie) (saved : SavedState controller)
    (valid : Valid bowtie) : SavedState (committed controller bowtie) :=
  ⟨Option.isSome_of_eq_some (current_set controller bowtie saved), rfl,
    set_current_valid controller bowtie saved valid⟩

theorem wear_saved (controller : ViewController) (now : Int) (bowtie : Bowtie) (saved : SavedState controller)
    (shown : current controller = some bowtie) :
    wear controller now =
      if timesWornMax < bowtie.timesWorn + 1 then none
      else some (committed controller { bowtie with timesWorn := bowtie.timesWorn + 1, lastWorn := now }) := by
  have valid : Valid bowtie := saved.valid bowtie (List.mem_of_getElem? shown)
  have saves := save_valid _ (set_current_valid controller
    { bowtie with timesWorn := bowtie.timesWorn + 1, lastWorn := now } saved valid)
  simp only [wear, shown, saves]
  rfl

theorem update_saved (controller : ViewController) (numberic : String) (bowtie : Bowtie)
    (saved : SavedState controller) (shown : current controller = some bowtie)
    (inRange : ratingMin ≤ doubleValue numberic ∧ doubleValue numberic ≤ ratingMax) :
    updateRating doubleValue controller numberic =
      some (committed controller { bowtie with rating := doubleValue numberic }) := by
  have saves := save_valid _ (set_current_valid controller { bowtie with rating := doubleValue numberic } saved inRange)
  simp only [updateRating, setRating, shown, saves]
  rfl

-- A rating out of range stays on the bow tie: the error branch asks again, but
-- restores nothing.
theorem update_failed (controller : ViewController) (numberic : String) (bowtie : Bowtie)
    (saved : SavedState controller) (shown : current controller = some bowtie)
    (outside : ¬ (ratingMin ≤ doubleValue numberic ∧ doubleValue numberic ≤ ratingMax)) :
    ¬ Saves (setRating doubleValue controller bowtie numberic).managedContex ∧
      ∃ next, updateRating doubleValue controller numberic = some next ∧ persisted next = some bowtie ∧
        current next = some { bowtie with rating := doubleValue numberic } := by
  have placed := current_set controller { bowtie with rating := doubleValue numberic } saved
  have fails : ¬ Saves (setRating doubleValue controller bowtie numberic).managedContex := fun saves =>
    outside ((saves_iff _).mp saves _ (List.mem_of_getElem? placed))
  refine ⟨fails, ?_⟩
  have kept : persisted controller = some bowtie := by
    rw [persisted, saved.saved]
    exact shown
  cases result : save (setRating doubleValue controller bowtie numberic).managedContex with
  | ok context => exact absurd ⟨context, result⟩ fails
  | error code =>
      simp only [updateRating, shown, result]
      split_ifs
      · exact ⟨_, rfl, kept, placed⟩
      · exact ⟨_, rfl, kept, placed⟩

theorem persisted_saved (controller : ViewController) (saved : SavedState controller) :
    persisted controller = current controller := by
  rw [persisted, current, saved.saved]

theorem current_committed (controller : ViewController) (bowtie : Bowtie) (saved : SavedState controller) :
    current (committed controller bowtie) = some bowtie :=
  current_set controller bowtie saved

theorem saved_dismissed (controller : ViewController) (saved : SavedState controller) :
    SavedState { controller with ratingAlert := false } :=
  ⟨saved.shown, saved.saved, saved.valid⟩

-- Between the events the app runs, with everything saved.
def RunsSaved (app : App) : Prop := ∃ controller, app = .running controller ∧ SavedState controller

theorem wear_harmless_iff (controller : ViewController) (now : Int) (after : App) (saved : SavedState controller)
    (taken : step doubleValue (.running controller) (.wear now) = some after) :
    (RatingFailureHarmless doubleValue (.running controller) (.wear now) after ↔
      InRange doubleValue (.running controller) (.wear now) after) ∧
    (RatingFailureHarmless doubleValue (.running controller) (.wear now) after → RunsSaved after) := by
  obtain ⟨bowtie, shown⟩ := Option.isSome_iff_exists.mp saved.shown
  have valid : Valid bowtie := saved.valid bowtie (List.mem_of_getElem? shown)
  have worn := wear_saved controller now bowtie saved shown
  by_cases overflow : timesWornMax < bowtie.timesWorn + 1
  · have trapped : after = .trapped := by
      rw [if_pos overflow] at worn
      exact (Option.some.inj taken).symm.trans (congrArg continued worn)
    have broken : ¬ RatingFailureHarmless doubleValue (.running controller) (.wear now) after := by
      intro harmless
      obtain ⟨next, running, -⟩ := harmless controller rfl
      cases trapped.symm.trans running
    refine ⟨iff_of_false broken fun inRange => ?_, fun harmless => absurd harmless broken⟩
    have small := inRange controller rfl bowtie shown
    omega
  · generalize new : { bowtie with timesWorn := bowtie.timesWorn + 1, lastWorn := now } = worn' at worn
    have running : after = .running (committed controller worn') := by
      rw [if_neg overflow] at worn
      exact (Option.some.inj taken).symm.trans (congrArg continued worn)
    have again : SavedState (committed controller worn') := committed_saved controller worn' saved (new ▸ valid)
    have harmless : RatingFailureHarmless doubleValue (.running controller) (.wear now) after := by
      intro other same
      cases same
      refine ⟨_, running, bowtie, worn', ?_, ?_, by rw [← new]⟩
      · rw [persisted_saved controller saved, shown]
      · rw [persisted_saved _ again, current_committed controller worn' saved]
    refine ⟨iff_of_true harmless fun other same => ?_, fun _ => ⟨_, running, again⟩⟩
    cases same
    intro tie known
    cases shown.symm.trans known
    omega

theorem update_harmless_iff (controller : ViewController) (numberic : String) (after : App)
    (saved : SavedState controller)
    (taken : step doubleValue (.running controller) (.updateRating numberic) = some after) :
    (RatingFailureHarmless doubleValue (.running controller) (.updateRating numberic) after ↔
      InRange doubleValue (.running controller) (.updateRating numberic) after) ∧
    (RatingFailureHarmless doubleValue (.running controller) (.updateRating numberic) after → RunsSaved after) := by
  obtain ⟨bowtie, shown⟩ := Option.isSome_iff_exists.mp saved.shown
  have dismissed := saved_dismissed controller saved
  by_cases inRange : ratingMin ≤ doubleValue numberic ∧ doubleValue numberic ≤ ratingMax
  · have updated := update_saved doubleValue _ numberic bowtie dismissed shown inRange
    have running := (Option.some.inj taken).symm.trans (congrArg continued updated)
    have again := committed_saved _ { bowtie with rating := doubleValue numberic } dismissed inRange
    have harmless : RatingFailureHarmless doubleValue (.running controller) (.updateRating numberic) after :=
      fun _ _ => ⟨_, running, fun _ _ _ => (persisted_saved _ again).symm⟩
    exact ⟨iff_of_true harmless fun _ _ => inRange, fun _ => ⟨_, running, again⟩⟩
  · obtain ⟨fails, next, updated, kept, changed⟩ :=
      update_failed doubleValue _ numberic bowtie dismissed shown inRange
    have running := (Option.some.inj taken).symm.trans (congrArg continued updated)
    have broken : ¬ RatingFailureHarmless doubleValue (.running controller) (.updateRating numberic) after := by
      intro harmless
      obtain ⟨other, same, restored⟩ := harmless controller rfl
      cases running.symm.trans same
      have equal := restored bowtie shown fails
      rw [kept, changed] at equal
      have rating : doubleValue numberic = bowtie.rating := congrArg Bowtie.rating (Option.some.inj equal)
      exact inRange (rating ▸ saved.valid bowtie (List.mem_of_getElem? shown))
    exact ⟨iff_of_false broken fun allowed => inRange (allowed controller rfl), fun harmless => absurd harmless broken⟩

theorem step_harmless_iff (before : App) (event : Event) (after : App) (saved : RunsSaved before)
    (taken : step doubleValue before event = some after) :
    (RatingFailureHarmless doubleValue before event after ↔ InRange doubleValue before event after) ∧
    (RatingFailureHarmless doubleValue before event after → RunsSaved after) := by
  obtain ⟨controller, same, saved⟩ := saved
  cases same
  cases event with
  | wear now => exact wear_harmless_iff doubleValue controller now after saved taken
  | updateRating numberic => exact update_harmless_iff doubleValue controller numberic after saved taken

theorem rating_failure_harmless_iff (controller : ViewController) (saved : SavedState controller)
    (events : List Event) :
    Steps (step doubleValue) (RatingFailureHarmless doubleValue) (.running controller) events ↔
      Steps (step doubleValue) (InRange doubleValue) (.running controller) events :=
  steps_iff (step doubleValue) RunsSaved _ _
    (fun before event after saved taken => (step_harmless_iff doubleValue before event after saved taken).1)
    (fun before event after saved taken => (step_harmless_iff doubleValue before event after saved taken).2)
    (.running controller) events ⟨controller, rfl, saved⟩

def redBowTie : Bowtie := ⟨some "Red Bow Tie", false, 0, 7 / 2, 4⟩

def redScreen : ViewController := ⟨⟨[redBowTie], [redBowTie]⟩, 0, some redBowTie, false⟩

theorem red_saved : SavedState redScreen := by
  refine ⟨rfl, rfl, fun bowtie listed => ?_⟩
  rw [List.mem_singleton.mp listed]
  exact ⟨by norm_num [ratingMin, redBowTie], by norm_num [ratingMax, redBowTie]⟩

-- The value of a text of digits.
def digitValue (text : String) : Rat :=
  (text.toList.foldl (fun value digit => 10 * value + (digit.toNat - 48)) 0 : Nat)

theorem digit_five : digitValue "5" = 5 := rfl

theorem digit_seven : digitValue "7" = 7 := rfl

theorem red_rated_and_worn :
    Steps (step digitValue) (RatingFailureHarmless digitValue) (.running redScreen)
      [.updateRating "5", .wear 1] := by
  refine (rating_failure_harmless_iff digitValue redScreen red_saved _).mpr ?_
  intro _ rated
  cases rated
  refine ⟨fun _ _ => ?_, fun _ worn => ⟨?_, trivial⟩⟩
  · change ratingMin ≤ digitValue "5" ∧ digitValue "5" ≤ ratingMax
    rw [digit_five]
    norm_num [ratingMin, ratingMax]
  · cases worn
    intro controller same bowtie shown
    cases same
    cases shown
    decide

theorem failed_rating_stays :
    SavedState redScreen ∧
      ¬ ∀ events, Steps (step digitValue) (RatingFailureHarmless digitValue) (.running redScreen) events := by
  refine ⟨red_saved, fun all => ?_⟩
  obtain ⟨harmless, -⟩ := all [.updateRating "7"] _ rfl
  have allowed := (update_harmless_iff digitValue redScreen "7" _ red_saved rfl).1.mp harmless
  obtain ⟨-, small⟩ := allowed redScreen rfl
  rw [digit_seven] at small
  norm_num [ratingMax] at small

end CultivationMotain.BowTies

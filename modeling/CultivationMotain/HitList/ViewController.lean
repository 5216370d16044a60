import CultivationMotain.Library.Runs
import Mathlib.Data.List.Nodup

set_option autoImplicit false

namespace CultivationMotain.HitList

open Runs

structure Person where
  objectID : Nat
  name : String
deriving DecidableEq, Repr

-- The managed object context, and the store that it saves to.
structure ManagedObjectContext where
  store : List Person
  insertedObjects : List Person
  nextID : Nat
deriving DecidableEq, Repr

structure ViewController where
  people : List Person
  context : ManagedObjectContext
deriving DecidableEq, Repr

def insertPerson (context : ManagedObjectContext) (name : String) : Person × ManagedObjectContext :=
  let person := ⟨context.nextID, name⟩
  (person, { context with
    insertedObjects := context.insertedObjects ++ [person]
    nextID := context.nextID + 1 })

-- A save that fails leaves the pending objects where they are.
def save (context : ManagedObjectContext) (succeeds : Bool) : Except String ManagedObjectContext :=
  if succeeds then
    .ok { context with store := context.store ++ context.insertedObjects, insertedObjects := [] }
  else .error "Could not save"

def saveName (controller : ViewController) (name : String) (succeeds : Bool) : ViewController :=
  let (person, context) := insertPerson controller.context name
  match save context succeeds with
  | .ok saved => { controller with people := controller.people ++ [person], context := saved }
  | .error _ => { controller with context := context }

def viewWillAppear (controller : ViewController) (fetchResult : Except String (List Person)) : ViewController :=
  match fetchResult with
  | .ok people => { controller with people := people }
  | .error _ => controller

structure Call where
  name : String
  succeeds : Bool
deriving DecidableEq, Repr

def step (controller : ViewController) (call : Call) : Option ViewController :=
  some (saveName controller call.name call.succeeds)

-- The context of a store with the persons of these names.
def openStore (names : List String) : ManagedObjectContext :=
  ⟨names.mapIdx fun index name => ⟨index, name⟩, [], names.length⟩

-- A fetch returns the persons of the store, in any order.
def appeared (names : List String) (fetched : List Person) : ViewController :=
  viewWillAppear ⟨[], openStore names⟩ (.ok fetched)

def PeopleStored (controller : ViewController) : Prop :=
  controller.people.Perm controller.context.store ∧ controller.people.Nodup

def NothingPending (before : ViewController) (call : Call) (_ : ViewController) : Prop :=
  call.succeeds = true → before.context.insertedObjects = []

structure Stored (controller : ViewController) : Prop where
  people : PeopleStored controller
  older : ∀ person ∈ controller.people, person.objectID < controller.context.nextID

theorem save_name_saved (controller : ViewController) (name : String) :
    saveName controller name true =
      ⟨controller.people ++ [⟨controller.context.nextID, name⟩],
        ⟨controller.context.store ++ (controller.context.insertedObjects ++ [⟨controller.context.nextID, name⟩]), [],
          controller.context.nextID + 1⟩⟩ := rfl

theorem save_name_failed (controller : ViewController) (name : String) :
    saveName controller name false =
      ⟨controller.people,
        ⟨controller.context.store, controller.context.insertedObjects ++ [⟨controller.context.nextID, name⟩],
          controller.context.nextID + 1⟩⟩ := rfl

theorem saved_people_iff (controller : ViewController) (name : String) (stored : Stored controller) :
    PeopleStored (saveName controller name true) ↔ controller.context.insertedObjects = [] := by
  obtain ⟨same, once⟩ := stored.people
  rw [save_name_saved, PeopleStored]
  constructor
  · intro after
    have lengths := after.1.length_eq
    rw [List.length_append, List.length_append, List.length_append, same.length_eq] at lengths
    exact List.eq_nil_of_length_eq_zero (by omega)
  · intro nothing
    rw [nothing, List.nil_append]
    have fresh : ⟨controller.context.nextID, name⟩ ∉ controller.people := fun listed =>
      absurd (stored.older _ listed) (Nat.lt_irrefl _)
    exact ⟨same.append_right _, List.concat_eq_append ▸ once.concat fresh⟩

theorem step_people_iff (before : ViewController) (call : Call) (after : ViewController) (stored : Stored before)
    (taken : step before call = some after) : PeopleStored after ↔ NothingPending before call after := by
  cases taken
  obtain ⟨name, succeeds⟩ := call
  cases succeeds with
  | true =>
      rw [saved_people_iff before name stored]
      exact ⟨fun nothing _ => nothing, fun nothing => nothing rfl⟩
  | false => exact iff_of_true stored.people (fun saved => by cases saved)

theorem step_stored (before : ViewController) (call : Call) (after : ViewController) (stored : Stored before)
    (taken : step before call = some after) (people : PeopleStored after) : Stored after := by
  cases taken
  refine ⟨people, ?_⟩
  obtain ⟨name, succeeds⟩ := call
  cases succeeds with
  | true =>
      rw [save_name_saved]
      intro person listed
      cases List.mem_append.mp listed with
      | inl earlier => exact Nat.lt_succ_of_lt (stored.older person earlier)
      | inr new =>
          rw [List.mem_singleton.mp new]
          exact Nat.lt_succ_self _
  | false => exact fun person listed => Nat.lt_succ_of_lt (stored.older person listed)

theorem open_store_ids (names : List String) :
    (openStore names).store.map Person.objectID = List.range names.length :=
  List.ext_getElem (by simp [openStore]) (by simp [openStore])

theorem appeared_stored (names : List String) (fetched : List Person) (result : fetched.Perm (openStore names).store) :
    Stored (appeared names fetched) := by
  have ids := open_store_ids names
  have once : (openStore names).store.Nodup := List.Nodup.of_map _ (ids ▸ List.nodup_range)
  refine ⟨⟨result, result.nodup_iff.mpr once⟩, fun person listed => ?_⟩
  have numbered := List.mem_map_of_mem (f := Person.objectID) (result.mem_iff.mp listed)
  rw [ids] at numbered
  exact List.mem_range.mp numbered

-- A call that fails leaves its person pending, so no later one may succeed.
theorem nothing_pending_iff (controller : ViewController) (calls : List Call) :
    Steps step NothingPending controller calls ↔
      (controller.context.insertedObjects = [] ∨ ∀ call ∈ calls, call.succeeds = false) ∧
        calls.Pairwise fun earlier later => later.succeeds = true → earlier.succeeds = true := by
  induction calls generalizing controller with
  | nil => simp [Steps]
  | cons call rest ih =>
      obtain ⟨name, succeeds⟩ := call
      have unfolded : Steps step NothingPending controller (⟨name, succeeds⟩ :: rest) ↔
          (succeeds = true → controller.context.insertedObjects = []) ∧
            Steps step NothingPending (saveName controller name succeeds) rest :=
        ⟨fun all => all _ rfl, fun both next taken => by cases taken; exact both⟩
      rw [unfolded, ih, List.pairwise_cons]
      cases succeeds with
      | true => simp [save_name_saved]
      | false =>
          simp only [save_name_failed, List.append_eq_nil_iff, reduceCtorEq, and_false, false_or, false_imp_iff,
            true_and, imp_false, List.mem_cons, forall_eq_or_imp, Bool.not_eq_true]
          exact ⟨fun both => ⟨Or.inr both.1, both⟩, fun all => all.2⟩

theorem people_stored_iff (names : List String) (fetched : List Person)
    (result : fetched.Perm (openStore names).store) (calls : List Call) :
    Steps step (fun _ _ after => PeopleStored after) (appeared names fetched) calls ↔
      calls.Pairwise fun earlier later => later.succeeds = true → earlier.succeeds = true := by
  have start := appeared_stored names fetched result
  rw [steps_iff step Stored _ _ step_people_iff step_stored _ calls start, nothing_pending_iff]
  exact and_iff_right (Or.inl rfl)

theorem people_stored_one_name :
    Steps step (fun _ _ after => PeopleStored after) (appeared ["Ann", "Ben"] [⟨1, "Ben"⟩, ⟨0, "Ann"⟩])
      [⟨"Cleo", true⟩, ⟨"Dan", false⟩] :=
  (people_stored_iff ["Ann", "Ben"] [⟨1, "Ben"⟩, ⟨0, "Ann"⟩] (by decide) _).mpr (by simp)

theorem failed_name_stored_later :
    ¬ ∀ calls, Steps step (fun _ _ after => PeopleStored after) (appeared [] []) calls := by
  intro all
  have last := steps_after _ _ (appeared [] []) _ [⟨"Ann", false⟩] [⟨"Ben", true⟩] rfl (all _)
  obtain ⟨⟨same, -⟩, -⟩ := last _ rfl
  exact absurd same.length_eq (by decide)

end CultivationMotain.HitList

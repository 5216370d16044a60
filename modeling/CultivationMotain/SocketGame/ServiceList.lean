import CultivationMotain.Library.Runs
import Mathlib.Data.List.Pairwise
import Mathlib.Data.String.Basic
import Mathlib.Order.Basic

set_option autoImplicit false

namespace CultivationMotain.SocketGame

open Runs

structure NSNetService (Name : Type) where
  name : Name
  type : String
  domain : String
deriving DecidableEq, Repr

inductive BrowserEvent (Name : Type) where
  | didFindService (service : NSNetService Name) (moreComing : Bool)
  | didRemoveService (service : NSNetService Name) (moreComing : Bool)
  | startBrowsing
deriving DecidableEq

-- rows are the services that the table has shown since its last reload; past is
-- a ghost, the events since viewDidLoad.
structure ServiceList (Name : Type) where
  services : List (NSNetService Name)
  rows : List (NSNetService Name)
  past : List (BrowserEvent Name)

variable {Name : Type}

section Browser

variable [DecidableEq Name] [Preorder Name] [DecidableLE Name]

def reloadData (list : ServiceList Name) : ServiceList Name := { list with rows := list.services }

def startBrowsing (list : ServiceList Name) : ServiceList Name := { list with services := [] }

-- sortedArrayUsingDescriptors returns a new array, which nobody takes.
def didFindService (list : ServiceList Name) (service : NSNetService Name) (moreComing : Bool) : ServiceList Name :=
  let added := { list with services := list.services ++ [service] }
  if !moreComing then
    let _sorted := added.services.mergeSort fun one other => one.name ≤ other.name
    reloadData added
  else added

def didRemoveService (list : ServiceList Name) (service : NSNetService Name) (moreComing : Bool) : ServiceList Name :=
  let removed := { list with services := list.services.filter (· ≠ service) }
  if !moreComing then reloadData removed else removed

def browserStep (list : ServiceList Name) (event : BrowserEvent Name) : Option (ServiceList Name) :=
  let seen := { list with past := list.past ++ [event] }
  match event with
  | .didFindService service moreComing => some (didFindService seen service moreComing)
  | .didRemoveService service moreComing => some (didRemoveService seen service moreComing)
  | .startBrowsing => some (startBrowsing seen)

-- After viewDidLoad, which starts the first browser.
def firstList : ServiceList Name := ⟨[], [], []⟩

end Browser

section Batches

def Ends (event : BrowserEvent Name) (service : NSNetService Name) : Prop :=
  event = .startBrowsing ∨ ∃ moreComing, event = .didRemoveService service moreComing

def Standing (past : List (BrowserEvent Name)) (service : NSNetService Name) : Prop :=
  ∃ earlier moreComing later, past = earlier ++ .didFindService service moreComing :: later ∧
    ∀ event ∈ later, ¬ Ends event service

def EndsBatch : BrowserEvent Name → Prop
  | .didFindService _ moreComing => moreComing = false
  | .didRemoveService _ moreComing => moreComing = false
  | .startBrowsing => False

structure ListRight [Preorder Name] (list : ServiceList Name) : Prop where
  standing : ∀ service, service ∈ list.services ↔ Standing list.past service
  once : list.services.Nodup
  sorted : list.services.Pairwise fun one other => one.name ≤ other.name
  reloaded : list.rows = list.services

def BatchRight [Preorder Name] (_ : ServiceList Name) (event : BrowserEvent Name) (after : ServiceList Name) : Prop :=
  EndsBatch event → ListRight after

-- Both stand, and the one was found before a find of the other.
def FoundBefore (past : List (BrowserEvent Name)) (one other : NSNetService Name) : Prop :=
  ∃ earlier moreComing later, past = earlier ++ .didFindService one moreComing :: later ∧
    (∀ event ∈ later, ¬ Ends event one) ∧ Standing later other

-- At the end of a batch the services that stand were found in the order of
-- their names, and none of them twice.
def FoundInOrder [Preorder Name] (before : ServiceList Name) (event : BrowserEvent Name)
    (_ : ServiceList Name) : Prop :=
  EndsBatch event → ∀ one other, FoundBefore (before.past ++ [event]) one other → one.name ≤ other.name ∧ one ≠ other

variable (past : List (BrowserEvent Name)) (event : BrowserEvent Name) (one other : NSNetService Name)

theorem append_split {α : Type} (front earlier later : List α) (last found : α) :
    front ++ [last] = earlier ++ found :: later ↔
      (later = [] ∧ front = earlier ∧ last = found) ∨
        ∃ between, later = between ++ [last] ∧ front = earlier ++ found :: between := by
  rcases List.eq_nil_or_concat later with rfl | ⟨between, final, rfl⟩
  · simp
  · rw [List.concat_eq_append, ← List.cons_append, ← List.append_assoc, List.append_singleton_inj]
    constructor
    · rintro ⟨rest, rfl⟩
      exact .inr ⟨between, rfl, rest⟩
    · rintro (⟨empty, -, -⟩ | ⟨inner, same, rest⟩)
      · simp at empty
      · obtain ⟨rfl, rfl⟩ := List.append_singleton_inj.mp same
        exact ⟨rest, rfl⟩

theorem standing_step :
    Standing (past ++ [event]) one ↔
      (Standing past one ∧ ¬ Ends event one) ∨ ∃ moreComing, event = .didFindService one moreComing := by
  constructor
  · rintro ⟨earlier, moreComing, later, split, kept⟩
    rcases (append_split past earlier later event _).mp split with ⟨-, -, found⟩ | ⟨between, rfl, before⟩
    · exact .inr ⟨moreComing, found⟩
    · have keeps := List.forall_mem_append.mp kept
      exact .inl ⟨⟨earlier, moreComing, between, before, keeps.1⟩, keeps.2 event List.mem_cons_self⟩
  · rintro (⟨⟨earlier, moreComing, later, split, kept⟩, keeps⟩ | ⟨moreComing, rfl⟩)
    · refine ⟨earlier, moreComing, later ++ [event], by rw [split]; simp, ?_⟩
      exact List.forall_mem_append.mpr ⟨kept, List.forall_mem_singleton.mpr keeps⟩
    · exact ⟨past, moreComing, [], rfl, List.forall_mem_nil _⟩

theorem found_before_step :
    FoundBefore (past ++ [event]) one other ↔
      (FoundBefore past one other ∧ ¬ Ends event one ∧ ¬ Ends event other) ∨
        (Standing past one ∧ ∃ moreComing, event = .didFindService other moreComing) := by
  constructor
  · rintro ⟨earlier, moreComing, later, split, kept, stands⟩
    rcases (append_split past earlier later event _).mp split with ⟨rfl, -, -⟩ | ⟨between, rfl, before⟩
    · obtain ⟨first, more, rest, impossible, -⟩ := stands
      simp at impossible
    · have keeps := List.forall_mem_append.mp kept
      rcases (standing_step between event other).mp stands with ⟨still, kept_other⟩ | found
      · exact .inl ⟨⟨earlier, moreComing, between, before, keeps.1, still⟩,
          keeps.2 event List.mem_cons_self, kept_other⟩
      · exact .inr ⟨⟨earlier, moreComing, between, before, keeps.1⟩, found⟩
  · rintro (⟨⟨earlier, moreComing, later, split, kept, stands⟩, keeps, keeps_other⟩ |
      ⟨⟨earlier, moreComing, later, split, kept⟩, more, rfl⟩)
    · refine ⟨earlier, moreComing, later ++ [event], by rw [split]; simp, ?_,
        (standing_step later event other).mpr (.inl ⟨stands, keeps_other⟩)⟩
      exact List.forall_mem_append.mpr ⟨kept, List.forall_mem_singleton.mpr keeps⟩
    · refine ⟨earlier, moreComing, later ++ [.didFindService other more], by rw [split]; simp, ?_,
        (standing_step later _ other).mpr (.inr ⟨more, rfl⟩)⟩
      refine List.forall_mem_append.mpr ⟨kept, List.forall_mem_singleton.mpr ?_⟩
      rintro (restarted | ⟨moreComing', removed⟩)
      · cases restarted
      · cases removed

end Batches

section Pairs

variable {α : Type} (services : List α) (one other : α)

theorem pair_sublist_append (found : α) :
    [one, other].Sublist (services ++ [found]) ↔ [one, other].Sublist services ∨ (one ∈ services ∧ other = found) := by
  rw [← List.reverse_sublist, List.reverse_concat, List.sublist_cons_iff]
  constructor
  · rintro (before | ⟨rest, same, before⟩)
    · exact .inl (List.reverse_sublist.mp before)
    · obtain ⟨rfl, rfl⟩ := List.cons.inj same
      exact .inr ⟨List.mem_reverse.mp (List.singleton_sublist.mp before), rfl⟩
  · rintro (before | ⟨member, rfl⟩)
    · exact .inl (List.reverse_sublist.mpr before)
    · exact .inr ⟨[one], rfl, List.singleton_sublist.mpr (List.mem_reverse.mpr member)⟩

theorem pair_sublist_filter (keep : α → Bool) :
    [one, other].Sublist (services.filter keep) ↔
      [one, other].Sublist services ∧ keep one = true ∧ keep other = true := by
  constructor
  · intro kept
    have members : ∀ service ∈ [one, other], keep service = true :=
      fun service member => (List.mem_filter.mp (kept.subset member)).2
    exact ⟨kept.trans List.filter_sublist, members one List.mem_cons_self,
      members other (List.mem_cons_of_mem _ List.mem_cons_self)⟩
  · rintro ⟨before, keep_one, keep_other⟩
    have kept := before.filter keep
    rwa [List.filter_cons_of_pos keep_one, List.filter_cons_of_pos keep_other] at kept

end Pairs

section Table

-- The list holds the finds that stand, in the order in which they came.
structure InFindOrder (list : ServiceList Name) : Prop where
  standing : ∀ service, service ∈ list.services ↔ Standing list.past service
  pairs : ∀ one other, [one, other].Sublist list.services ↔ FoundBefore list.past one other

theorem first_list_in_find_order : InFindOrder (firstList : ServiceList Name) where
  standing service := by
    constructor
    · intro member
      cases member
    · rintro ⟨earlier, moreComing, later, split, -⟩
      simp [firstList] at split
  pairs one other := by
    constructor
    · intro before
      cases before
    · rintro ⟨earlier, moreComing, later, split, -⟩
      simp [firstList] at split

section Finds

variable [Preorder Name] [DecidableLE Name] (list : ServiceList Name) (service : NSNetService Name) (moreComing : Bool)

theorem did_find_service_services :
    (didFindService list service moreComing).services = list.services ++ [service] := by
  cases moreComing <;> rfl

theorem did_find_service_past : (didFindService list service moreComing).past = list.past := by
  cases moreComing <;> rfl

theorem did_find_service_keeps (seen : ServiceList Name) (order : InFindOrder seen)
    (past : list.past = seen.past ++ [.didFindService service moreComing]) (services : list.services = seen.services) :
    InFindOrder (didFindService list service moreComing) where
  standing other := by
    have kept : ¬ Ends (.didFindService service moreComing) other := by simp [Ends]
    rw [did_find_service_services, did_find_service_past, past, services, standing_step, List.mem_append,
      order.standing other, and_iff_left kept]
    simp [eq_comm]
  pairs one other := by
    have kept : ∀ service', ¬ Ends (.didFindService service moreComing) service' := fun service' => by simp [Ends]
    rw [did_find_service_services, did_find_service_past, past, services, found_before_step, pair_sublist_append,
      order.pairs one other, order.standing one, and_iff_left (And.intro (kept one) (kept other))]
    simp [eq_comm]

end Finds

section Removals

variable [DecidableEq Name] (list : ServiceList Name) (service : NSNetService Name) (moreComing : Bool)

theorem did_remove_service_services :
    (didRemoveService list service moreComing).services = list.services.filter (· ≠ service) := by
  cases moreComing <;> rfl

theorem did_remove_service_past : (didRemoveService list service moreComing).past = list.past := by
  cases moreComing <;> rfl

theorem did_remove_service_keeps (seen : ServiceList Name) (order : InFindOrder seen)
    (past : list.past = seen.past ++ [.didRemoveService service moreComing])
    (services : list.services = seen.services) :
    InFindOrder (didRemoveService list service moreComing) where
  standing other := by
    rw [did_remove_service_services, did_remove_service_past, past, services, standing_step, List.mem_filter,
      order.standing other]
    simp [Ends, eq_comm (a := service)]
  pairs one other := by
    rw [did_remove_service_services, did_remove_service_past, past, services, found_before_step, pair_sublist_filter,
      order.pairs one other]
    simp [Ends, eq_comm (a := service)]

end Removals

theorem start_browsing_keeps (list : ServiceList Name) (past : List (BrowserEvent Name))
    (restarted : list.past = past ++ [.startBrowsing]) : InFindOrder (startBrowsing list) where
  standing other := by
    change other ∈ [] ↔ Standing list.past other
    rw [restarted, standing_step]
    simp [Ends]
  pairs one other := by
    change [one, other].Sublist [] ↔ FoundBefore list.past one other
    rw [restarted, found_before_step]
    simp [Ends]

variable [DecidableEq Name] [Preorder Name] [DecidableLE Name]

theorem browser_step_keeps (list after : ServiceList Name) (event : BrowserEvent Name) (order : InFindOrder list)
    (took : browserStep list event = some after) : InFindOrder after := by
  cases event with
  | didFindService service moreComing =>
      obtain rfl := Option.some.inj took
      exact did_find_service_keeps _ service moreComing list order rfl rfl
  | didRemoveService service moreComing =>
      obtain rfl := Option.some.inj took
      exact did_remove_service_keeps _ service moreComing list order rfl rfl
  | startBrowsing =>
      obtain rfl := Option.some.inj took
      exact start_browsing_keeps _ list.past rfl

theorem browser_step_past (list after : ServiceList Name) (event : BrowserEvent Name)
    (took : browserStep list event = some after) : after.past = list.past ++ [event] := by
  cases event with
  | didFindService service moreComing =>
      obtain rfl := Option.some.inj took
      exact did_find_service_past _ service moreComing
  | didRemoveService service moreComing =>
      obtain rfl := Option.some.inj took
      exact did_remove_service_past _ service moreComing
  | startBrowsing => exact Option.some.inj took ▸ rfl

theorem batch_end_reloads (list after : ServiceList Name) (event : BrowserEvent Name) (ends : EndsBatch event)
    (took : browserStep list event = some after) : after.rows = after.services := by
  cases event with
  | didFindService service moreComing =>
      obtain rfl : moreComing = false := ends
      exact Option.some.inj took ▸ rfl
  | didRemoveService service moreComing =>
      obtain rfl : moreComing = false := ends
      exact Option.some.inj took ▸ rfl
  | startBrowsing => exact False.elim ends

theorem batch_right_iff (list after : ServiceList Name) (event : BrowserEvent Name) (order : InFindOrder list)
    (took : browserStep list event = some after) : BatchRight list event after ↔ FoundInOrder list event after := by
  have kept := browser_step_keeps list after event order took
  have past := browser_step_past list after event took
  constructor
  · intro right ends one other before
    have pair := (kept.pairs one other).mpr (past ▸ before)
    exact ⟨(right ends).sorted.forall_sublist pair, (right ends).once.forall_sublist pair⟩
  · intro found ends
    have ordered : ∀ {one other}, [one, other].Sublist after.services → one.name ≤ other.name ∧ one ≠ other :=
      fun {one other} pair => found ends one other (past ▸ (kept.pairs one other).mp pair)
    exact {
      standing := kept.standing
      once := List.pairwise_of_forall_sublist fun pair => (ordered pair).2
      sorted := List.pairwise_of_forall_sublist fun pair => (ordered pair).1
      reloaded := batch_end_reloads list after event ends took }

theorem service_list_iff (events : List (BrowserEvent Name)) :
    Steps browserStep BatchRight firstList events ↔ Steps browserStep FoundInOrder firstList events :=
  steps_iff browserStep InFindOrder BatchRight FoundInOrder
    (fun list event after order took => batch_right_iff list after event order took)
    (fun list event after order took _ => browser_step_keeps list after event order took)
    firstList events first_list_in_find_order

end Table

-- Two services that are found in one batch, the later name first.
theorem names_unsorted :
    ¬ ∀ events : List (BrowserEvent String), Steps browserStep BatchRight firstList events := by
  intro right
  let anna : NSNetService String := ⟨"Anna", "_fourinarow._tcp.", "local."⟩
  let bob : NSNetService String := ⟨"Bob", "_fourinarow._tcp.", "local."⟩
  have steps := right [.didFindService bob true, .didFindService anna false]
  have sorted := (((steps _ rfl).2 _ rfl).1 rfl).sorted
  have before : bob.name ≤ anna.name := sorted.forall_sublist (.refl [bob, anna])
  revert before
  decide

end CultivationMotain.SocketGame

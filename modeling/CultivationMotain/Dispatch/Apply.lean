import Mathlib.Data.List.Nodup
import Mathlib.Data.List.Perm.Subperm
import CultivationMotain.Dispatch.Words
import CultivationMotain.Library.Threads
import CultivationMotain.Library.Weights

set_option autoImplicit false

namespace CultivationMotain.Dispatch.Applies

open Threads Weights

-- dteSem is the semaphore of da_event. called and freed are ghosts: the
-- iterations whose call has returned, and how often the object was freed.
structure Apply where
  daIndex : Nat
  daTodo : Nat
  daIterations : Nat
  daThrCnt : Nat
  dteSem : Nat
  called : List Nat
  freed : Nat
deriving DecidableEq, Repr

-- Where a thread is in _dispatch_apply_invoke2; queued is a continuation that no
-- worker has taken yet. done counts the thread's calls.
inductive Point where
  | queued
  | acquire
  | callout (idx done : Nat)
  | next (done : Nat)
  | subtract (done : Nat)
  | signal
  | out
  | wait
  | leave
  | free
  | returned
deriving DecidableEq, Repr

-- waits is DISPATCH_APPLY_INVOKE_WAIT, which only the caller's thread has.
structure Invocation where
  waits : Bool
  point : Point
deriving DecidableEq, Repr

def incremented (da : Apply) : Apply := { da with daIndex := (da.daIndex + 1) % sizeLimit }

-- One atomic operation, one call of func or one call of the kernel.
def act (_ : Unit) (da : Apply) (thread : Invocation) : Option (Apply × Invocation) :=
  match thread.point with
  | .queued => some (da, { thread with point := .acquire })
  | .acquire =>
      if da.daIndex < da.daIterations then some (incremented da, { thread with point := .callout da.daIndex 0 })
      else some (incremented da, { thread with point := .out })
  | .callout idx done =>
      some ({ da with called := da.called ++ [idx] }, { thread with point := .next (done + 1) })
  | .next done =>
      if da.daIndex < da.daIterations then some (incremented da, { thread with point := .callout da.daIndex done })
      else some (incremented da, { thread with point := .subtract done })
  | .subtract done =>
      let todo := (da.daTodo + sizeLimit - done) % sizeLimit
      some ({ da with daTodo := todo }, { thread with point := if todo = 0 then .signal else .out })
  | .signal => some ({ da with dteSem := da.dteSem + 1 }, { thread with point := .out })
  | .out => some (da, { thread with point := if thread.waits then .wait else .leave })
  | .wait =>
      if da.dteSem = 0 then none else some ({ da with dteSem := da.dteSem - 1 }, { thread with point := .leave })
  | .leave =>
      let thrCnt := (da.daThrCnt + countLimit - 1) % countLimit
      some ({ da with daThrCnt := thrCnt }, { thread with point := if thrCnt = 0 then .free else .returned })
  | .free => some ({ da with freed := da.freed + 1 }, { thread with point := .returned })
  | .returned => none

-- The object and the threads when the continuations have been pushed.
def created (iterations thrCnt : Nat) : System Apply Invocation where
  shared :=
    { daIndex := 0
      daTodo := iterations
      daIterations := iterations
      daThrCnt := thrCnt
      dteSem := 0
      called := []
      freed := 0 }
  threads := ⟨true, .acquire⟩ :: List.replicate (thrCnt - 1) ⟨false, .queued⟩

-- What one step can do.
inductive Move (da : Apply) : Invocation → Apply → Invocation → Prop where
  | start (waits : Bool) : Move da ⟨waits, .queued⟩ da ⟨waits, .acquire⟩
  | first (waits : Bool) (inside : da.daIndex < da.daIterations) :
      Move da ⟨waits, .acquire⟩ (incremented da) ⟨waits, .callout da.daIndex 0⟩
  | late (waits : Bool) (outside : ¬da.daIndex < da.daIterations) :
      Move da ⟨waits, .acquire⟩ (incremented da) ⟨waits, .out⟩
  | call (waits : Bool) (idx done : Nat) :
      Move da ⟨waits, .callout idx done⟩ { da with called := da.called ++ [idx] } ⟨waits, .next (done + 1)⟩
  | again (waits : Bool) (done : Nat) (inside : da.daIndex < da.daIterations) :
      Move da ⟨waits, .next done⟩ (incremented da) ⟨waits, .callout da.daIndex done⟩
  | stop (waits : Bool) (done : Nat) (outside : ¬da.daIndex < da.daIterations) :
      Move da ⟨waits, .next done⟩ (incremented da) ⟨waits, .subtract done⟩
  | subtract (waits : Bool) (done todo : Nat) (left : (da.daTodo + sizeLimit - done) % sizeLimit = todo) :
      Move da ⟨waits, .subtract done⟩ { da with daTodo := todo } ⟨waits, if todo = 0 then .signal else .out⟩
  | signal (waits : Bool) : Move da ⟨waits, .signal⟩ { da with dteSem := da.dteSem + 1 } ⟨waits, .out⟩
  | out (waits : Bool) : Move da ⟨waits, .out⟩ da ⟨waits, if waits then .wait else .leave⟩
  | wait (waits : Bool) (signalled : da.dteSem ≠ 0) :
      Move da ⟨waits, .wait⟩ { da with dteSem := da.dteSem - 1 } ⟨waits, .leave⟩
  | leave (waits : Bool) (thrCnt : Nat) (left : (da.daThrCnt + countLimit - 1) % countLimit = thrCnt) :
      Move da ⟨waits, .leave⟩ { da with daThrCnt := thrCnt } ⟨waits, if thrCnt = 0 then .free else .returned⟩
  | free (waits : Bool) : Move da ⟨waits, .free⟩ { da with freed := da.freed + 1 } ⟨waits, .returned⟩

theorem act_moves (action : Unit) (da next : Apply) (thread moved : Invocation)
    (acted : act action da thread = some (next, moved)) : Move da thread next moved := by
  obtain ⟨waits, point⟩ := thread
  cases point with
  | queued =>
      cases acted
      exact .start waits
  | acquire =>
      by_cases inside : da.daIndex < da.daIterations
      · cases (if_pos inside).symm.trans acted
        exact .first waits inside
      · cases (if_neg inside).symm.trans acted
        exact .late waits inside
  | callout idx done =>
      cases acted
      exact .call waits idx done
  | next done =>
      by_cases inside : da.daIndex < da.daIterations
      · cases (if_pos inside).symm.trans acted
        exact .again waits done inside
      · cases (if_neg inside).symm.trans acted
        exact .stop waits done inside
  | subtract done =>
      cases acted
      exact .subtract waits done _ rfl
  | signal =>
      cases acted
      exact .signal waits
  | out =>
      cases acted
      exact .out waits
  | wait =>
      by_cases empty : da.dteSem = 0
      · cases (if_pos empty).symm.trans acted
      · cases (if_neg empty).symm.trans acted
        exact .wait waits empty
  | leave =>
      cases acted
      exact .leave waits _ rfl
  | free =>
      cases acted
      exact .free waits
  | returned => cases acted

namespace Invocation

variable (thread : Invocation)

def calls (index : Nat) : Nat :=
  match thread.point with
  | .callout idx _ => if idx = index then 1 else 0
  | _ => 0

-- The thread's calls that da_todo still counts.
def inHand : Nat :=
  match thread.point with
  | .callout _ done | .next done | .subtract done => done
  | _ => 0

-- The thread has been given an index past the last one.
def past : Nat :=
  match thread.point with
  | .queued | .acquire | .callout _ _ | .next _ => 0
  | _ => 1

def signals : Nat := if thread.point = .signal then 1 else 0

def left : Nat :=
  match thread.point with
  | .free | .returned => 1
  | _ => 0

def frees : Nat := if thread.point = .free then 1 else 0

def caller : Nat := if thread.waits then 1 else 0

-- The caller, when da_event has let it through.
def waited : Nat :=
  match thread.point with
  | .leave | .free | .returned => thread.caller
  | _ => 0

-- What holds of a thread at each point.
def Placed : Prop :=
  match thread.point with
  | .queued => thread.waits = false
  | .wait => thread.waits = true
  | .next done | .subtract done => 0 < done
  | _ => True

end Invocation

-- Every iteration is with the caller of func, called, or not reached yet.
structure Claims (iterations : Nat) (da : Apply) (threads : List Invocation) : Prop where
  known : da.daIterations = iterations
  claimed : ∀ index, da.called.count index + weigh (fun thread => thread.calls index) threads =
    if index < min da.daIndex iterations then 1 else 0
  past : weigh Invocation.past threads = da.daIndex - iterations

-- What da_todo counts, and who is told that it is 0.
structure Work (iterations : Nat) (da : Apply) (threads : List Invocation) : Prop where
  todo : da.called.length + da.daTodo = iterations + weigh Invocation.inHand threads
  event : weigh Invocation.signals threads + da.dteSem + weigh Invocation.waited threads =
    if da.daTodo = 0 then 1 else 0
  bounded : da.daTodo ≤ iterations

structure Leaving (count : Nat) (da : Apply) (threads : List Invocation) : Prop where
  thrCnt : da.daThrCnt + weigh Invocation.left threads = count
  freed : weigh Invocation.frees threads + da.freed = if da.daThrCnt = 0 then 1 else 0

structure Kept (iterations count : Nat) (da : Apply) (threads : List Invocation) : Prop where
  claims : Claims iterations da threads
  work : Work iterations da threads
  leaving : Leaving count da threads
  length : threads.length = count
  callers : weigh Invocation.caller threads = 1
  placed : ∀ thread ∈ threads, thread.Placed

theorem called_nodup (iterations : Nat) (da : Apply) (threads : List Invocation)
    (holds : Claims iterations da threads) :
    da.called.Nodup := by
  refine List.nodup_iff_count_le_one.mpr fun index => ?_
  have claimed := holds.claimed index
  by_cases reached : index < min da.daIndex iterations
  · rw [if_pos reached] at claimed
    omega
  · rw [if_neg reached] at claimed
    omega

theorem called_inside (iterations : Nat) (da : Apply) (threads : List Invocation) (holds : Claims iterations da threads)
    (index : Nat) (member : index ∈ da.called) : index < iterations := by
  have claimed := holds.claimed index
  have positive := List.count_pos_iff.mpr member
  by_contra outside
  rw [if_neg (by omega)] at claimed
  omega

theorem called_length (iterations : Nat) (da : Apply) (threads : List Invocation)
    (holds : Claims iterations da threads) : da.called.length ≤ iterations := by
  have inside : da.called ⊆ List.range iterations := fun index member =>
    List.mem_range.mpr (called_inside iterations da threads holds index member)
  have shorter := (List.subperm_of_subset (called_nodup iterations da threads holds) inside).length_le
  rwa [List.length_range] at shorter

theorem called_all (iterations : Nat) (da : Apply) (threads : List Invocation) (holds : Claims iterations da threads)
    (whole : da.called.length = iterations) : da.called.Perm (List.range iterations) := by
  have inside : da.called ⊆ List.range iterations := fun index member =>
    List.mem_range.mpr (called_inside iterations da threads holds index member)
  exact (List.subperm_of_subset (called_nodup iterations da threads holds) inside).perm_of_length_le
    (by rw [List.length_range, whole])

section Step

variable (iterations count : Nat) (da next : Apply) (threads : List Invocation) (index : Nat)
  (thread moved : Invocation)

theorem claims_same (holds : Claims iterations da threads) (found : threads[index]? = some thread)
    (calls : ∀ idx, moved.calls idx = thread.calls idx) (past : moved.past = thread.past)
    (known : next.daIterations = da.daIterations) (reached : next.daIndex = da.daIndex)
    (called : next.called = da.called) : Claims iterations next (threads.set index moved) := by
  refine ⟨known.trans holds.known, fun idx => ?_, ?_⟩
  · rw [called, reached, weigh_same _ threads index thread moved found (calls idx)]
    exact holds.claimed idx
  · rw [reached, weigh_same _ threads index thread moved found past]
    exact holds.past

theorem incremented_index (room : da.daIndex + 1 < sizeLimit) : (incremented da).daIndex = da.daIndex + 1 :=
  Nat.mod_eq_of_lt room

-- The next iteration goes to the thread.
theorem claims_given (holds : Claims iterations da threads) (found : threads[index]? = some thread)
    (room : da.daIndex + 1 < sizeLimit) (inside : da.daIndex < da.daIterations)
    (idle : ∀ idx, thread.calls idx = 0) (before : thread.past = 0) (waits : Bool) (done : Nat) :
    Claims iterations (incremented da) (threads.set index ⟨waits, .callout da.daIndex done⟩) := by
  rw [holds.known] at inside
  refine ⟨holds.known, fun idx => ?_, ?_⟩
  · have claimed := holds.claimed idx
    have moves := weigh_set (fun thread => thread.calls idx) threads index thread
      ⟨waits, .callout da.daIndex done⟩ found
    rw [idle idx] at moves
    rw [incremented_index da room]
    change da.called.count idx + _ = _
    by_cases here : da.daIndex = idx
    · have given : Invocation.calls ⟨waits, .callout da.daIndex done⟩ idx = 1 := if_pos here
      rw [if_neg (by omega)] at claimed
      rw [if_pos (by omega)]
      omega
    · have other : Invocation.calls ⟨waits, .callout da.daIndex done⟩ idx = 0 := if_neg here
      have same : idx < min (da.daIndex + 1) iterations ↔ idx < min da.daIndex iterations := by omega
      rw [if_congr same rfl rfl]
      omega
  · have past := holds.past
    rw [incremented_index da room, weigh_same _ threads index thread _ found before.symm]
    omega

-- There is none left, and the thread has found that out.
theorem claims_refused (holds : Claims iterations da threads) (found : threads[index]? = some thread)
    (room : da.daIndex + 1 < sizeLimit) (outside : ¬da.daIndex < da.daIterations)
    (calls : ∀ idx, moved.calls idx = thread.calls idx) (before : thread.past = 0) (after : moved.past = 1) :
    Claims iterations (incremented da) (threads.set index moved) := by
  rw [holds.known] at outside
  refine ⟨holds.known, fun idx => ?_, ?_⟩
  · have same : idx < min (da.daIndex + 1) iterations ↔ idx < min da.daIndex iterations := by omega
    rw [incremented_index da room, weigh_same _ threads index thread moved found (calls idx), if_congr same rfl rfl]
    exact holds.claimed idx
  · have past := holds.past
    have moves := weigh_set Invocation.past threads index thread moved found
    rw [incremented_index da room]
    omega

theorem claims_called (holds : Claims iterations da threads) (waits : Bool) (idx done : Nat)
    (found : threads[index]? = some ⟨waits, .callout idx done⟩) :
    Claims iterations { da with called := da.called ++ [idx] } (threads.set index ⟨waits, .next (done + 1)⟩) := by
  refine ⟨holds.known, fun other => ?_, ?_⟩
  · have claimed := holds.claimed other
    have moves := weigh_set (fun thread => thread.calls other) threads index _ ⟨waits, .next (done + 1)⟩ found
    have nothing : Invocation.calls ⟨waits, .next (done + 1)⟩ other = 0 := rfl
    dsimp only
    rw [List.count_append, List.count_singleton]
    by_cases here : idx = other
    · have mine : Invocation.calls ⟨waits, .callout idx done⟩ other = 1 := if_pos here
      rw [if_pos (beq_iff_eq.mpr here)]
      omega
    · have mine : Invocation.calls ⟨waits, .callout idx done⟩ other = 0 := if_neg here
      rw [if_neg (fun same => here (beq_iff_eq.mp same))]
      omega
  · rw [weigh_same Invocation.past threads index _ ⟨waits, .next (done + 1)⟩ found rfl]
    exact holds.past

theorem claims_kept (holds : Claims iterations da threads) (found : threads[index]? = some thread)
    (room : thread.past = 0 → da.daIndex + 1 < sizeLimit) (moves : Move da thread next moved) :
    Claims iterations next (threads.set index moved) := by
  cases moves with
  | start waits =>
      exact claims_same iterations da da threads index _ _ holds found (fun _ => rfl) rfl rfl rfl rfl
  | first waits inside =>
      exact claims_given iterations da threads index _ holds found (room rfl) inside (fun _ => rfl) rfl waits 0
  | late waits outside =>
      exact claims_refused iterations da threads index _ _ holds found (room rfl) outside (fun _ => rfl) rfl rfl
  | call waits idx done => exact claims_called iterations da threads index holds waits idx done found
  | again waits done inside =>
      exact claims_given iterations da threads index _ holds found (room rfl) inside (fun _ => rfl) rfl waits done
  | stop waits done outside =>
      exact claims_refused iterations da threads index _ _ holds found (room rfl) outside (fun _ => rfl) rfl rfl
  | subtract waits done todo left =>
      by_cases last : todo = 0
      · rw [if_pos last]
        exact claims_same iterations da _ threads index _ _ holds found (fun _ => rfl) rfl rfl rfl rfl
      · rw [if_neg last]
        exact claims_same iterations da _ threads index _ _ holds found (fun _ => rfl) rfl rfl rfl rfl
  | signal waits => exact claims_same iterations da _ threads index _ _ holds found (fun _ => rfl) rfl rfl rfl rfl
  | out waits =>
      cases waits with
      | true => exact claims_same iterations da da threads index _ _ holds found (fun _ => rfl) rfl rfl rfl rfl
      | false => exact claims_same iterations da da threads index _ _ holds found (fun _ => rfl) rfl rfl rfl rfl
  | wait waits signalled =>
      exact claims_same iterations da _ threads index _ _ holds found (fun _ => rfl) rfl rfl rfl rfl
  | leave waits thrCnt left =>
      by_cases last : thrCnt = 0
      · rw [if_pos last]
        exact claims_same iterations da _ threads index _ _ holds found (fun _ => rfl) rfl rfl rfl rfl
      · rw [if_neg last]
        exact claims_same iterations da _ threads index _ _ holds found (fun _ => rfl) rfl rfl rfl rfl
  | free waits => exact claims_same iterations da _ threads index _ _ holds found (fun _ => rfl) rfl rfl rfl rfl

end Step

end CultivationMotain.Dispatch.Applies

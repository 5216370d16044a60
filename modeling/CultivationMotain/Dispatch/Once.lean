import Mathlib.Data.List.Nodup
import Mathlib.Tactic.Common
import CultivationMotain.Library.LinkedChain
import CultivationMotain.Library.Threads
import CultivationMotain.Library.Weights

set_option autoImplicit false

namespace CultivationMotain.Dispatch.DispatchOnce

open Threads Weights LinkedChain

-- The _dispatch_once_waiter_s on the stack of a call, in a build without the
-- gate.
abbrev Frame := Nat

inductive Predicate where
  | null
  | done
  | waiter (dow : Frame)
deriving DecidableEq, Repr

-- dowNext and dowEvent are the fields of every frame. The others are ghosts:
-- how often the function was begun and has ended, how many calls have
-- returned, the frames in use so far, and the frames that the predicate leads
-- to, the one of the thread that runs the function last.
structure Once where
  vval : Predicate
  dowNext : Frame → Option Frame
  dowEvent : Frame → Nat
  begun : Nat
  ended : Nat
  returned : Nat
  used : List Frame
  stack : List Frame

def Once.initial : Once := ⟨.null, fun _ => none, fun _ => 0, 0, 0, 0, [], []⟩

-- enter is before the first exchange; callout runs the function; walk and
-- signal are the loop that follows it; the others are the calls that wait.
-- fault: a null pointer is read.
inductive Point where
  | idle
  | enter (dow : Frame)
  | callout (dow : Frame)
  | broadcast (dow : Frame)
  | walk (dow next : Frame)
  | signal (dow next tmp : Frame)
  | load (dow : Frame)
  | attempt (dow : Frame) (next : Predicate)
  | readThread (dow next : Frame)
  | writeNext (dow next : Frame)
  | sleep (dow : Frame)
  | fault
deriving DecidableEq, Repr

inductive Action where
  | call (dow : Frame)
  | resume
  | retry
deriving DecidableEq, Repr

def Once.ret (once : Once) : Once := { once with returned := once.returned + 1 }

-- The check of the inlined _dispatch_once.
def callOnce (once : Once) (dow : Frame) : Once × Point :=
  let once := { once with
    dowNext := Function.update once.dowNext dow none
    dowEvent := Function.update once.dowEvent dow 0
    used := dow :: once.used }
  if once.vval = .done then (once.ret, .idle) else (once, .enter dow)

def enter (once : Once) (dow : Frame) : Once × Point :=
  if once.vval = .null then
    ({ once with vval := .waiter dow, begun := once.begun + 1, stack := [dow] }, .callout dow)
  else (once, .load dow)

def broadcast (once : Once) (dow : Frame) : Once × Point :=
  let next := once.vval
  let once := { once with vval := .done }
  match next with
  | .waiter next => (once, .walk dow next)
  | .null | .done => (once, .fault)

def walk (once : Once) (dow next : Frame) : Option (Once × Point) :=
  if next = dow then some (once.ret, .idle) else (once.dowNext next).map fun tmp => (once, .signal dow next tmp)

def signal (once : Once) (dow next tmp : Frame) : Once × Point :=
  ({ once with
    dowEvent := Function.update once.dowEvent next (once.dowEvent next + 1)
    stack := once.stack.tail }, .walk dow tmp)

def attempt (once : Once) (dow : Frame) (next : Predicate) : Once × Point :=
  if next = .done then (once.ret, .idle)
  else if once.vval = next then
    let once := { once with vval := .waiter dow, stack := dow :: once.stack }
    match next with
    | .waiter next => (once, .readThread dow next)
    | .null | .done => (once, .fault)
  else (once, .attempt dow once.vval)

def sleep (once : Once) (dow : Frame) : Option (Once × Point) :=
  if once.dowEvent dow = 0 then none
  else some ({ once with dowEvent := Function.update once.dowEvent dow (once.dowEvent dow - 1) }.ret, .idle)

-- A call has a frame of its own.
def act : Action → Once → Point → Option (Once × Point)
  | .call dow, once, .idle => if dow ∈ once.used then none else some (callOnce once dow)
  | .resume, once, .enter dow => some (enter once dow)
  | .resume, once, .callout dow => some ({ once with ended := once.ended + 1 }, .broadcast dow)
  | .resume, once, .broadcast dow => some (broadcast once dow)
  | .resume, once, .walk dow next => walk once dow next
  | .resume, once, .signal dow next tmp => some (signal once dow next tmp)
  | .resume, once, .load dow => some (once, .attempt dow once.vval)
  | .resume, once, .attempt dow next => some (attempt once dow next)
  | .retry, once, .attempt dow next => if next = .done then none else some (once, .attempt dow once.vval)
  | .resume, once, .readThread dow next => some (once, .writeNext dow next)
  | .resume, once, .writeNext dow next =>
      some ({ once with dowNext := Function.update once.dowNext dow (some next) }, .sleep dow)
  | .resume, once, .sleep dow => sleep once dow
  | _, _, _ => none

def Point.frame? : Point → Option Frame
  | .idle | .fault => none
  | .enter dow | .callout dow | .broadcast dow | .walk dow _ | .signal dow _ _ | .load dow | .attempt dow _
  | .readThread dow _ | .writeNext dow _ | .sleep dow => some dow

def Point.uses (frame : Frame) (point : Point) : Nat := point.frame?.elim 0 fun dow => if dow = frame then 1 else 0

def Point.busy (point : Point) : Nat := point.frame?.elim 0 fun _ => 1

def Point.sleeps (frame : Frame) : Point → Nat
  | .readThread dow _ | .writeNext dow _ | .sleep dow => if dow = frame then 1 else 0
  | _ => 0

def Point.running : Point → Nat
  | .callout _ => 1
  | _ => 0

def Point.working : Point → Nat
  | .callout _ | .broadcast _ => 1
  | _ => 0

def Point.owning : Point → Nat
  | .callout _ | .broadcast _ | .walk _ _ | .signal _ _ _ => 1
  | _ => 0

def Stands (once : Once) : Point → Prop
  | .idle => True
  | .enter dow => once.dowNext dow = none
  | .load dow => once.vval ≠ .null ∧ once.dowNext dow = none
  | .callout dow | .broadcast dow => once.stack.getLast? = some dow
  | .walk dow next => once.vval = .done ∧ once.stack.getLast? = some dow ∧ once.stack.head? = some next
  | .signal dow next tmp => once.vval = .done ∧ once.stack.getLast? = some dow ∧ once.stack.head? = some next ∧
      once.dowNext next = some tmp
  | .attempt dow next => (next ≠ .null ∧ once.vval ≠ .null) ∧ once.dowNext dow = none ∧
      (next = .done → once.vval = .done)
  | .readThread dow next | .writeNext dow next => Follows once.stack dow next ∧ once.dowNext dow = none
  | .sleep dow => once.dowEvent dow ≠ 0 ∨ once.dowNext dow ≠ none
  | .fault => False

structure Kept (once : Once) (threads : List Point) : Prop where
  single : once.begun ≤ 1
  begun : once.vval = .null ↔ once.begun = 0
  empty : once.begun = 0 → once.stack = []
  working : weigh Point.working threads + (if once.vval = .done then 1 else 0) = once.begun
  running : once.ended + weigh Point.running threads = once.begun
  owners : weigh Point.owning threads ≤ once.begun
  owned : once.stack.dropLast ≠ [] → 0 < weigh Point.owning threads
  top : ∀ dow, once.vval = .waiter dow → once.stack.head? = some dow
  sleepers : ∀ frame, weigh (Point.sleeps frame) threads = once.stack.dropLast.count frame + once.dowEvent frame
  events : ∀ frame, once.dowEvent frame ≠ 0 → once.vval = .done
  returns : once.returned ≠ 0 → once.vval = .done
  distinct : once.stack.Nodup
  strung : Strung once.dowNext once.stack
  known : ∀ frame ∈ once.stack, frame ∈ once.used
  frames : ∀ frame, weigh (Point.uses frame) threads ≤ 1
  fresh : ∀ frame, frame ∉ once.used →
    weigh (Point.uses frame) threads = 0 ∧ once.dowEvent frame = 0 ∧ once.dowNext frame = none
  calls : once.used.length = once.returned + weigh Point.busy threads
  stands : ∀ point ∈ threads, Stands once point

variable (once : Once) (threads : List Point) (index : Nat) (point moved : Point)

structure SameWeights (point moved : Point) : Prop where
  working : moved.working = point.working
  running : moved.running = point.running
  owning : moved.owning = point.owning
  sleeps : ∀ frame, moved.sleeps frame = point.sleeps frame

theorem uses_le (holds : ∀ frame, weigh (Point.uses frame) threads ≤ 1) (found : threads[index]? = some point)
    (uses : ∀ frame, moved.uses frame ≤ point.uses frame) (frame : Frame) :
    weigh (Point.uses frame) (threads.set index moved) ≤ 1 := by
  have moves := weigh_set (Point.uses frame) threads index point moved found
  have less := uses frame
  have most := holds frame
  omega

theorem fresh_uses (found : threads[index]? = some point) (uses : ∀ frame, moved.uses frame ≤ point.uses frame)
    (frame : Frame) (none : weigh (Point.uses frame) threads = 0) :
    weigh (Point.uses frame) (threads.set index moved) = 0 := by
  have moves := weigh_set (Point.uses frame) threads index point moved found
  have less := uses frame
  omega

-- A move that leaves the predicate and the frames alone, and perhaps returns.
theorem move_kept (holds : Kept once threads) (found : threads[index]? = some point) (same : SameWeights point moved)
    (uses : ∀ frame, moved.uses frame ≤ point.uses frame) (stands : Stands once moved) (count : Nat)
    (returns : count ≠ 0 → once.vval = .done) (calls : count + moved.busy = once.returned + point.busy) :
    Kept { once with returned := count } (threads.set index moved) := by
  refine ⟨holds.single, holds.begun, holds.empty, ?_, ?_, ?_, ?_, holds.top, fun frame => ?_, holds.events, returns,
    holds.distinct, holds.strung, holds.known, fun frame => ?_, fun frame outside => ?_, ?_, ?_⟩
  · rw [weigh_same _ threads index point moved found same.working]
    exact holds.working
  · rw [weigh_same _ threads index point moved found same.running]
    exact holds.running
  · rw [weigh_same _ threads index point moved found same.owning]
    exact holds.owners
  · rw [weigh_same _ threads index point moved found same.owning]
    exact holds.owned
  · rw [weigh_same _ threads index point moved found (same.sleeps frame)]
    exact holds.sleepers frame
  · exact uses_le threads index point moved holds.frames found uses frame
  · exact ⟨fresh_uses threads index point moved found uses frame (holds.fresh frame outside).1,
      (holds.fresh frame outside).2⟩
  · have moves := weigh_set Point.busy threads index point moved found
    have before := holds.calls
    change once.used.length = count + weigh Point.busy (threads.set index moved)
    omega
  · have transport (point : Point) (stands : Stands once point) : Stands { once with returned := count } point := by
      cases point <;> exact stands
    exact forall_mem_set _ threads index moved (fun point other =>
      transport point (forall_mem_erase _ threads index holds.stands point other)) (transport moved stands)

theorem call_kept (dow : Frame) (holds : Kept once threads) (found : threads[index]? = some .idle)
    (new : dow ∉ once.used) : Kept (callOnce once dow).1 (threads.set index (callOnce once dow).2) := by
  obtain ⟨unused, event, next⟩ := holds.fresh dow new
  have events : Function.update once.dowEvent dow 0 = once.dowEvent := by rw [← event, Function.update_eq_self]
  have nexts : Function.update once.dowNext dow none = once.dowNext := by rw [← next, Function.update_eq_self]
  have known (frame : Frame) (member : frame ∈ once.stack) : frame ∈ dow :: once.used :=
    List.mem_cons_of_mem _ (holds.known frame member)
  have outer (frame : Frame) (outside : frame ∉ dow :: once.used) :=
    holds.fresh frame fun member => outside (List.mem_cons_of_mem _ member)
  have wider (point : Point) (stands : Stands once point) : Stands { once with used := dow :: once.used } point := by
    cases point <;> exact stands
  have others := forall_mem_erase _ threads index holds.stands
  unfold callOnce
  rw [events, nexts]
  have calls := holds.calls
  by_cases done : once.vval = .done
  · rw [if_pos done]
    have same (weight : Point → Nat) : weigh weight (threads.set index .idle) = weigh weight threads :=
      weigh_same weight threads index .idle .idle found rfl
    refine ⟨holds.single, holds.begun, holds.empty, ?_, ?_, ?_, ?_, holds.top, fun frame => ?_, holds.events,
      fun _ => done, holds.distinct, holds.strung, known, fun frame => ?_, fun frame outside => ?_, ?_, ?_⟩
    · exact (same Point.working).symm ▸ holds.working
    · exact (same Point.running).symm ▸ holds.running
    · exact (same Point.owning).symm ▸ holds.owners
    · exact (same Point.owning).symm ▸ holds.owned
    · exact (same (Point.sleeps frame)).symm ▸ holds.sleepers frame
    · exact (same (Point.uses frame)).symm ▸ holds.frames frame
    · exact (same (Point.uses frame)).symm ▸ outer frame outside
    · have idle := same Point.busy
      change once.used.length + 1 = once.returned + 1 + weigh Point.busy (threads.set index .idle)
      omega
    · refine forall_mem_set _ threads index _ (fun point other => ?_) trivial
      have stands := wider point (others point other)
      cases point <;> exact stands
  · rw [if_neg done]
    have same (weight : Point → Nat) (still : weight (.enter dow) = weight .idle) :
        weigh weight (threads.set index (.enter dow)) = weigh weight threads :=
      weigh_same weight threads index .idle (.enter dow) found still
    have moves (frame : Frame) : weigh (Point.uses frame) (threads.set index (.enter dow)) =
        weigh (Point.uses frame) threads + if dow = frame then 1 else 0 :=
      weigh_set (Point.uses frame) threads index .idle (.enter dow) found
    refine ⟨holds.single, holds.begun, holds.empty, ?_, ?_, ?_, ?_, holds.top, fun frame => ?_, holds.events,
      holds.returns, holds.distinct, holds.strung, known, fun frame => ?_, fun frame outside => ?_, ?_, ?_⟩
    · exact (same Point.working rfl).symm ▸ holds.working
    · exact (same Point.running rfl).symm ▸ holds.running
    · exact (same Point.owning rfl).symm ▸ holds.owners
    · exact (same Point.owning rfl).symm ▸ holds.owned
    · exact (same (Point.sleeps frame) rfl).symm ▸ holds.sleepers frame
    · have most := holds.frames frame
      have used := moves frame
      change weigh (Point.uses frame) (threads.set index (.enter dow)) ≤ 1
      by_cases here : dow = frame
      · subst here
        rw [if_pos rfl] at used
        omega
      · rw [if_neg here] at used
        omega
    · have used := moves frame
      rw [if_neg (List.ne_of_not_mem_cons outside).symm] at used
      exact ⟨used.trans (outer frame outside).1, (outer frame outside).2⟩
    · have busy : weigh Point.busy (threads.set index (.enter dow)) = weigh Point.busy threads + 1 :=
        weigh_set Point.busy threads index .idle (.enter dow) found
      change once.used.length + 1 = once.returned + weigh Point.busy (threads.set index (.enter dow))
      omega
    · exact forall_mem_set _ threads index _ (fun point other => wider point (others point other)) next

theorem used_of_member (dow : Frame) (holds : Kept once threads) (member : point ∈ threads)
    (frame : point.frame? = some dow) : dow ∈ once.used := by
  by_contra outside
  have uses := weight_le_weigh (Point.uses dow) threads point member
  rw [(holds.fresh dow outside).1, Point.uses, frame, Option.elim_some, if_pos rfl] at uses
  omega

theorem enter_kept (dow : Frame) (holds : Kept once threads) (found : threads[index]? = some (.enter dow)) :
    Kept (enter once dow).1 (threads.set index (enter once dow).2) := by
  unfold enter
  have missing := holds.stands _ (List.mem_of_getElem? found)
  by_cases first : once.vval = .null
  · have none := holds.begun.mp first
    have nothing := holds.empty none
    have working := holds.working
    have owners := holds.owners
    have running := holds.running
    have notDone : once.vval ≠ .done := fun done => Predicate.noConfusion (first.symm.trans done)
    have works := weigh_set Point.working threads index _ (.callout dow) found
    have runs := weigh_set Point.running threads index _ (.callout dow) found
    have owns := weigh_set Point.owning threads index _ (.callout dow) found
    simp only [Point.working, Point.running, Point.owning] at works runs owns
    rw [if_neg notDone] at working
    rw [if_pos first]
    refine ⟨?_, ?_, ?_, ?_, ?_, ?_, fun more => (more rfl).elim, ?_, fun frame => ?_, fun frame some => ?_,
      fun some => ?_,
      List.nodup_singleton dow, missing, fun frame member => ?_, fun frame => ?_, fun frame outside => ?_, ?_, ?_⟩
    · change once.begun + 1 ≤ 1
      omega
    · exact iff_of_false Predicate.noConfusion (Nat.succ_ne_zero _)
    · exact fun impossible => (Nat.succ_ne_zero _ impossible).elim
    · change weigh Point.working (threads.set index (.callout dow)) + 0 = once.begun + 1
      omega
    · change once.ended + weigh Point.running (threads.set index (.callout dow)) = once.begun + 1
      omega
    · change weigh Point.owning (threads.set index (.callout dow)) ≤ once.begun + 1
      omega
    · intro top same
      cases same
      rfl
    · have sleepers := holds.sleepers frame
      rw [nothing] at sleepers
      rw [weigh_same _ threads index _ (.callout dow) found rfl]
      exact sleepers
    · exact (notDone (holds.events frame some)).elim
    · exact (notDone (holds.returns some)).elim
    · cases List.mem_singleton.mp member
      exact used_of_member once threads _ dow holds (List.mem_of_getElem? found) rfl
    · exact uses_le threads index _ (.callout dow) holds.frames found (fun _ => Nat.le_refl _) frame
    · exact ⟨fresh_uses threads index _ (.callout dow) found (fun _ => Nat.le_refl _) frame
        (holds.fresh frame outside).1,
        (holds.fresh frame outside).2⟩
    · rw [weigh_same _ threads index _ (.callout dow) found rfl]
      exact holds.calls
    · refine forall_mem_set _ threads index _ (fun point other => ?_) rfl
      have before := forall_mem_erase _ threads index holds.stands point other
      cases point with
      | idle => trivial
      | enter _ => exact before
      | load _ => exact (before.1 first).elim
      | attempt _ _ => exact (before.1.2 first).elim
      | sleep _ => exact before
      | callout _ | broadcast _ =>
          rw [Stands, nothing] at before
          cases before
      | walk _ _ | signal _ _ _ => exact (notDone before.1).elim
      | readThread _ _ | writeNext _ _ =>
          rw [Stands, nothing] at before
          exact (List.not_mem_nil (follows_mem _ _ _ before.1).1).elim
      | fault => exact before
  · rw [if_neg first]
    exact move_kept once threads index (.enter dow) (.load dow) holds found ⟨rfl, rfl, rfl, fun _ => rfl⟩
      (fun _ => Nat.le_refl _) ⟨first, missing⟩ once.returned holds.returns rfl

theorem callout_kept (dow : Frame) (holds : Kept once threads) (found : threads[index]? = some (.callout dow)) :
    Kept { once with ended := once.ended + 1 } (threads.set index (.broadcast dow)) := by
  have running := holds.running
  have runs : weigh Point.running (threads.set index (.broadcast dow)) + 1 = weigh Point.running threads :=
    weigh_set Point.running threads index _ (.broadcast dow) found
  refine ⟨holds.single, holds.begun, holds.empty, ?_, ?_, ?_, ?_, holds.top, fun frame => ?_, holds.events,
    holds.returns, holds.distinct, holds.strung, holds.known, fun frame => ?_, fun frame outside => ?_, ?_, ?_⟩
  · rw [weigh_same _ threads index _ (.broadcast dow) found rfl]
    exact holds.working
  · change once.ended + 1 + weigh Point.running (threads.set index (.broadcast dow)) = once.begun
    omega
  · rw [weigh_same _ threads index _ (.broadcast dow) found rfl]
    exact holds.owners
  · rw [weigh_same _ threads index _ (.broadcast dow) found rfl]
    exact holds.owned
  · rw [weigh_same _ threads index _ (.broadcast dow) found rfl]
    exact holds.sleepers frame
  · exact uses_le threads index _ (.broadcast dow) holds.frames found (fun _ => Nat.le_refl _) frame
  · exact ⟨fresh_uses threads index _ (.broadcast dow) found (fun _ => Nat.le_refl _) frame
      (holds.fresh frame outside).1,
      (holds.fresh frame outside).2⟩
  · rw [weigh_same _ threads index _ (.broadcast dow) found rfl]
    exact holds.calls
  · have stands := holds.stands _ (List.mem_of_getElem? found)
    refine forall_mem_set _ threads index _ (fun point other => ?_) stands
    have before := forall_mem_erase _ threads index holds.stands point other
    cases point <;> exact before

theorem broadcast_kept (dow : Frame) (holds : Kept once threads) (found : threads[index]? = some (.broadcast dow)) :
    Kept (broadcast once dow).1 (threads.set index (broadcast once dow).2) := by
  have last := holds.stands _ (List.mem_of_getElem? found)
  have working := holds.working
  have single := holds.single
  have works := fun next => weigh_set Point.working threads index _ (.walk dow next) found
  have erased : weigh Point.working (threads.eraseIdx index) + 1 = weigh Point.working threads :=
    weigh_erase Point.working threads index _ found
  have started : once.begun = 1 := by omega
  unfold broadcast
  cases predicate : once.vval with
  | null =>
      have none := holds.begun.mp predicate
      omega
  | done =>
      rw [if_pos predicate] at working
      omega
  | waiter next =>
      have works : weigh Point.working (threads.set index (.walk dow next)) + 1 = weigh Point.working threads :=
        works next
      have notDone : once.vval ≠ .done := fun done => Predicate.noConfusion (predicate.symm.trans done)
      rw [if_neg notDone] at working
      refine ⟨single, iff_of_false Predicate.noConfusion fun none => Nat.one_ne_zero (started.symm.trans none),
        holds.empty, ?_, ?_, ?_, ?_,
        fun _ impossible => Predicate.noConfusion impossible, fun frame => ?_, fun _ _ => rfl, fun _ => rfl,
        holds.distinct, holds.strung, holds.known, fun frame => ?_, fun frame outside => ?_, ?_, ?_⟩
      · change weigh Point.working (threads.set index (.walk dow next)) + 1 = once.begun
        omega
      · rw [weigh_same _ threads index _ (.walk dow next) found rfl]
        exact holds.running
      · rw [weigh_same _ threads index _ (.walk dow next) found rfl]
        exact holds.owners
      · rw [weigh_same _ threads index _ (.walk dow next) found rfl]
        exact holds.owned
      · rw [weigh_same _ threads index _ (.walk dow next) found rfl]
        exact holds.sleepers frame
      · exact uses_le threads index _ (.walk dow next) holds.frames found (fun _ => Nat.le_refl _) frame
      · exact ⟨fresh_uses threads index _ (.walk dow next) found (fun _ => Nat.le_refl _) frame
          (holds.fresh frame outside).1, (holds.fresh frame outside).2⟩
      · rw [weigh_same _ threads index _ (.walk dow next) found rfl]
        exact holds.calls
      · refine forall_mem_set _ threads index _ (fun point other => ?_) ⟨rfl, last, holds.top next predicate⟩
        have before := forall_mem_erase _ threads index holds.stands point other
        cases point with
        | load _ => exact ⟨Predicate.noConfusion, before.2⟩
        | attempt _ _ => exact ⟨⟨before.1.1, Predicate.noConfusion⟩, before.2.1, fun _ => rfl⟩
        | walk _ _ | signal _ _ _ => exact (notDone before.1).elim
        | _ => exact before

theorem finish_kept (dow : Frame) (holds : Kept once threads) (found : threads[index]? = some (.walk dow dow)) :
    Kept once.ret (threads.set index .idle) := by
  obtain ⟨done, last, first⟩ := holds.stands _ (List.mem_of_getElem? found)
  obtain ⟨rest, stack⟩ := List.head?_eq_some_iff.mp first
  have alone : rest = [] := by
    cases rest with
    | nil => rfl
    | cons second rest =>
        have distinct := holds.distinct
        rw [stack] at last distinct
        rw [List.getLast?_cons_cons] at last
        exact ((List.nodup_cons.mp distinct).1 (List.mem_of_getLast? last)).elim
  have owns : weigh Point.owning (threads.set index .idle) + 1 = weigh Point.owning threads :=
    weigh_set Point.owning threads index _ .idle found
  have owners := holds.owners
  refine ⟨holds.single, holds.begun, holds.empty, ?_, ?_, ?_, fun more => ?_, holds.top, fun frame => ?_, holds.events,
    fun _ => done, holds.distinct, holds.strung, holds.known, fun frame => ?_, fun frame outside => ?_, ?_, ?_⟩
  · rw [weigh_same _ threads index _ .idle found rfl]
    exact holds.working
  · rw [weigh_same _ threads index _ .idle found rfl]
    exact holds.running
  · change weigh Point.owning (threads.set index .idle) ≤ once.begun
    omega
  · refine (more ?_).elim
    change once.stack.dropLast = []
    rw [stack, alone]
    rfl
  · rw [weigh_same _ threads index _ .idle found rfl]
    exact holds.sleepers frame
  · exact uses_le threads index _ .idle holds.frames found (fun _ => Nat.zero_le _) frame
  · exact ⟨fresh_uses threads index _ .idle found (fun _ => Nat.zero_le _) frame (holds.fresh frame outside).1,
      (holds.fresh frame outside).2⟩
  · have calls := holds.calls
    have busy : weigh Point.busy (threads.set index .idle) + 1 = weigh Point.busy threads :=
      weigh_set Point.busy threads index _ .idle found
    change once.used.length = once.returned + 1 + weigh Point.busy (threads.set index .idle)
    omega
  · refine forall_mem_set _ threads index _ (fun point other => ?_) trivial
    have before := forall_mem_erase _ threads index holds.stands point other
    cases point <;> exact before

theorem signal_kept (dow next tmp : Frame) (holds : Kept once threads)
    (found : threads[index]? = some (.signal dow next tmp)) :
    Kept (signal once dow next tmp).1 (threads.set index (.walk dow tmp)) := by
  obtain ⟨done, last, first, link⟩ := holds.stands _ (List.mem_of_getElem? found)
  obtain ⟨rest, stack⟩ := List.head?_eq_some_iff.mp first
  have strung := holds.strung
  rw [stack] at strung
  obtain ⟨later, rfl⟩ := strung_head once.dowNext next tmp rest strung link
  have distinct := holds.distinct
  rw [stack] at distinct last
  rw [List.getLast?_cons_cons] at last
  have owns := weigh_erase Point.owning threads index _ found
  have owners := holds.owners
  have single := holds.single
  have alone : weigh Point.owning (threads.eraseIdx index) = 0 := by
    have one : (Point.signal dow next tmp).owning = 1 := rfl
    omega
  have known : next ∈ once.used := holds.known next (List.mem_of_head? first)
  have raised (frame : Frame) : Function.update once.dowEvent next (once.dowEvent next + 1) frame =
      once.dowEvent frame + if next = frame then 1 else 0 := by
    by_cases same : next = frame
    · subst same
      rw [Function.update_self, if_pos rfl]
    · rw [Function.update_of_ne (Ne.symm same), if_neg same]
      rfl
  rw [signal, stack, List.tail_cons]
  refine ⟨single, holds.begun, fun none => ?_, ?_, ?_, ?_, fun _ => ?_, fun top same => ?_, fun frame => ?_,
    fun _ _ => done, holds.returns, (List.nodup_cons.mp distinct).2, strung_cons _ _ _ strung, fun frame member => ?_,
    fun frame => ?_, fun frame outside => ?_, ?_, ?_⟩
  · have nothing := holds.empty none
    rw [stack] at nothing
    cases nothing
  · rw [weigh_same _ threads index _ (.walk dow tmp) found rfl]
    exact holds.working
  · rw [weigh_same _ threads index _ (.walk dow tmp) found rfl]
    exact holds.running
  · rw [weigh_same _ threads index _ (.walk dow tmp) found rfl]
    exact owners
  · rw [weigh_same _ threads index _ (.walk dow tmp) found rfl]
    exact holds.owned (by rw [stack]; exact List.cons_ne_nil _ _)
  · exact Predicate.noConfusion (done.symm.trans same)
  · have sleepers := holds.sleepers frame
    rw [stack, List.dropLast_cons_cons, List.count_cons] at sleepers
    rw [weigh_same _ threads index _ (.walk dow tmp) found rfl]
    simp only [raised frame]
    by_cases same : next = frame
    · simp only [if_pos same, beq_iff_eq] at sleepers ⊢
      omega
    · simp only [if_neg same, beq_iff_eq] at sleepers ⊢
      omega
  · exact holds.known frame (stack ▸ List.mem_cons_of_mem _ member)
  · exact uses_le threads index _ (.walk dow tmp) holds.frames found (fun _ => Nat.le_refl _) frame
  · have old := holds.fresh frame outside
    refine ⟨fresh_uses threads index _ (.walk dow tmp) found (fun _ => Nat.le_refl _) frame old.1, ?_, old.2.2⟩
    simp only [raised frame, if_neg (ne_of_mem_of_not_mem known outside)]
    exact old.2.1
  · rw [weigh_same _ threads index _ (.walk dow tmp) found rfl]
    exact holds.calls
  · refine forall_mem_set _ threads index _ (fun point other => ?_) ⟨done, last, rfl⟩
    have before := forall_mem_erase _ threads index holds.stands point other
    have silent := (weigh_eq_zero_iff _ _).mp alone point other
    cases point with
    | idle => trivial
    | enter _ | load _ | attempt _ _ => exact before
    | callout _ | broadcast _ | walk _ _ | signal _ _ _ => cases silent
    | readThread frame behind | writeNext frame behind =>
        refine ⟨?_, before.2⟩
        have follows := before.1
        rw [stack] at follows
        refine ((follows_cons_cons _ _ _ _ _).mp follows).resolve_left fun here => ?_
        exact Option.some_ne_none tmp (link.symm.trans (here.1 ▸ before.2))
    | sleep frame =>
        refine before.imp_left fun some => ?_
        change Function.update once.dowEvent next (once.dowEvent next + 1) frame ≠ 0
        rw [raised frame]
        omega
    | fault => exact before

-- The other threads do not use the frame.
theorem alone_uses (dow frame : Frame) (holds : Kept once threads) (found : threads[index]? = some point)
    (here : point.frame? = some frame) (other : Point) (elsewhere : other ∈ threads.eraseIdx index)
    (there : other.frame? = some dow) : dow ≠ frame := by
  rintro rfl
  have erased := weigh_erase (Point.uses dow) threads index point found
  have most := holds.frames dow
  have one : point.uses dow = 1 := by rw [Point.uses, here, Option.elim_some, if_pos rfl]
  have silent := (weigh_eq_zero_iff _ _).mp (show weigh (Point.uses dow) (threads.eraseIdx index) = 0 by omega) other
    elsewhere
  rw [Point.uses, there, Option.elim_some, if_pos rfl] at silent
  cases silent

theorem outside_stack (dow next : Frame) (predicate : Predicate) (holds : Kept once threads)
    (found : threads[index]? = some (.attempt dow predicate)) (top : once.vval = .waiter next) : dow ∉ once.stack := by
  have working := holds.working
  have notNull : once.vval ≠ .null := fun null => Predicate.noConfusion (top.symm.trans null)
  have notDone : once.vval ≠ .done := fun done => Predicate.noConfusion (top.symm.trans done)
  have started : once.begun ≠ 0 := fun none => notNull (holds.begun.mpr none)
  rw [if_neg notDone] at working
  intro member
  obtain ⟨last, ended⟩ : ∃ last, once.stack.getLast? = some last :=
    ⟨_, List.getLast?_eq_some_getLast (List.ne_nil_of_mem member)⟩
  by_cases same : dow = last
  · have erased : weigh Point.working (threads.eraseIdx index) + 0 = weigh Point.working threads :=
      weigh_erase Point.working threads index _ found
    obtain ⟨other, elsewhere, works⟩ := exists_of_weigh_pos Point.working (threads.eraseIdx index) (by omega)
    have before := forall_mem_erase _ threads index holds.stands other elsewhere
    cases other with
    | callout owner | broadcast owner =>
        have frame : owner = dow := Option.some.inj (before.symm.trans (same ▸ ended))
        exact alone_uses once threads index _ owner dow holds found rfl _ elsewhere rfl frame
    | _ => exact works rfl
  · have inside : dow ∈ once.stack.dropLast := by
      obtain ⟨init, stack⟩ := List.getLast?_eq_some_iff.mp ended
      rw [stack, List.dropLast_concat]
      rw [stack] at member
      exact (List.mem_append.mp member).resolve_right fun here => same (List.mem_singleton.mp here)
    have sleepers := holds.sleepers dow
    have counted : 0 < once.stack.dropLast.count dow := List.count_pos_iff.mpr inside
    have erased : weigh (Point.sleeps dow) (threads.eraseIdx index) + 0 = weigh (Point.sleeps dow) threads :=
      weigh_erase (Point.sleeps dow) threads index _ found
    obtain ⟨other, elsewhere, sleeps⟩ := exists_of_weigh_pos (Point.sleeps dow) (threads.eraseIdx index) (by omega)
    cases other with
    | readThread frame _ | writeNext frame _ | sleep frame =>
        have frame := of_not_not fun different : ¬ frame = dow => sleeps (if_neg different)
        exact alone_uses once threads index _ _ dow holds found rfl _ elsewhere rfl frame
    | _ => exact sleeps rfl

theorem push_kept (dow next : Frame) (holds : Kept once threads)
    (found : threads[index]? = some (.attempt dow (.waiter next))) (top : once.vval = .waiter next) :
    Kept { once with vval := .waiter dow, stack := dow :: once.stack } (threads.set index (.readThread dow next)) := by
  have outside := outside_stack once threads index dow next _ holds found top
  have missing := (holds.stands _ (List.mem_of_getElem? found)).2.1
  obtain ⟨rest, stack⟩ := List.head?_eq_some_iff.mp (holds.top next top)
  have working := holds.working
  have notNull : once.vval ≠ .null := fun null => Predicate.noConfusion (top.symm.trans null)
  have notDone : once.vval ≠ .done := fun done => Predicate.noConfusion (top.symm.trans done)
  have started : once.begun ≠ 0 := fun none => notNull (holds.begun.mpr none)
  have strung := holds.strung
  rw [if_neg notDone] at working
  rw [stack] at outside strung
  rw [stack]
  refine ⟨holds.single, iff_of_false Predicate.noConfusion started, fun none => (started none).elim, ?_, ?_, ?_,
    fun _ => ?_, fun frame same => ?_, fun frame => ?_, fun frame some => ?_, fun some => ?_, ?_,
    ⟨Or.inl missing, strung⟩,
    fun frame member => ?_, fun frame => ?_, fun frame outside => ?_, ?_, ?_⟩
  · rw [weigh_same _ threads index _ (.readThread dow next) found rfl]
    exact working
  · rw [weigh_same _ threads index _ (.readThread dow next) found rfl]
    exact holds.running
  · rw [weigh_same _ threads index _ (.readThread dow next) found rfl]
    exact holds.owners
  · rw [weigh_same _ threads index _ (.readThread dow next) found rfl]
    have less : weigh Point.working threads ≤ weigh Point.owning threads := by
      refine weigh_mono _ _ threads fun point => ?_
      cases point with
      | callout _ | broadcast _ => exact Nat.le_refl 1
      | _ => exact Nat.zero_le _
    omega
  · cases same
    rfl
  · have moves : weigh (Point.sleeps frame) (threads.set index (.readThread dow next)) =
        weigh (Point.sleeps frame) threads + if dow = frame then 1 else 0 :=
      weigh_set (Point.sleeps frame) threads index _ (.readThread dow next) found
    have sleepers := holds.sleepers frame
    rw [stack] at sleepers
    rw [moves, sleepers, List.dropLast_cons_cons, List.count_cons]
    simp only [beq_iff_eq]
    omega
  · exact (notDone (holds.events frame some)).elim
  · exact (notDone (holds.returns some)).elim
  · exact List.nodup_cons.mpr ⟨outside, stack ▸ holds.distinct⟩
  · rcases List.mem_cons.mp member with rfl | old
    · exact used_of_member once threads _ frame holds (List.mem_of_getElem? found) rfl
    · exact holds.known frame (stack ▸ old)
  · exact uses_le threads index _ (.readThread dow next) holds.frames found (fun _ => Nat.le_refl _) frame
  · exact ⟨fresh_uses threads index _ (.readThread dow next) found (fun _ => Nat.le_refl _) frame
      (holds.fresh frame outside).1, (holds.fresh frame outside).2⟩
  · rw [weigh_same _ threads index _ (.readThread dow next) found rfl]
    exact holds.calls
  · refine forall_mem_set _ threads index _ (fun point other => ?_)
      ⟨(follows_cons_cons _ _ _ _ _).mpr (Or.inl ⟨rfl, rfl⟩), missing⟩
    have before := forall_mem_erase _ threads index holds.stands point other
    cases point with
    | idle => trivial
    | enter _ => exact before
    | load _ => exact ⟨Predicate.noConfusion, before.2⟩
    | attempt _ _ =>
        exact ⟨⟨before.1.1, Predicate.noConfusion⟩, before.2.1, fun done => (notDone (before.2.2 done)).elim⟩
    | sleep _ => exact before
    | callout frame | broadcast frame =>
        rw [Stands, stack] at before
        exact List.getLast?_cons_cons.trans before
    | walk _ _ | signal _ _ _ => exact (notDone before.1).elim
    | readThread _ _ | writeNext _ _ =>
        rw [Stands, stack] at before
        exact ⟨(follows_cons_cons _ _ _ _ _).mpr (Or.inr before.1), before.2⟩
    | fault => exact before

theorem write_kept (dow next : Frame) (holds : Kept once threads)
    (found : threads[index]? = some (.writeNext dow next)) :
    Kept { once with dowNext := Function.update once.dowNext dow (some next) } (threads.set index (.sleep dow)) := by
  obtain ⟨follows, missing⟩ := holds.stands _ (List.mem_of_getElem? found)
  have known := used_of_member once threads _ dow holds (List.mem_of_getElem? found) rfl
  have written : Function.update once.dowNext dow (some next) dow = some next := Function.update_self _ _ _
  have other (frame : Frame) (different : frame ≠ dow) :
      Function.update once.dowNext dow (some next) frame = once.dowNext frame := Function.update_of_ne different _ _
  refine ⟨holds.single, holds.begun, holds.empty, ?_, ?_, ?_, ?_, holds.top, fun frame => ?_, holds.events,
    holds.returns, holds.distinct, strung_link _ _ _ _ holds.distinct holds.strung follows, holds.known,
    fun frame => ?_,
    fun frame outside => ?_, ?_, ?_⟩
  · rw [weigh_same _ threads index _ (.sleep dow) found rfl]
    exact holds.working
  · rw [weigh_same _ threads index _ (.sleep dow) found rfl]
    exact holds.running
  · rw [weigh_same _ threads index _ (.sleep dow) found rfl]
    exact holds.owners
  · rw [weigh_same _ threads index _ (.sleep dow) found rfl]
    exact holds.owned
  · rw [weigh_same _ threads index _ (.sleep dow) found rfl]
    exact holds.sleepers frame
  · exact uses_le threads index _ (.sleep dow) holds.frames found (fun _ => Nat.le_refl _) frame
  · obtain ⟨unused, event, absent⟩ := holds.fresh frame outside
    exact ⟨fresh_uses threads index _ (.sleep dow) found (fun _ => Nat.le_refl _) frame unused, event,
      (other frame (ne_of_mem_of_not_mem known outside).symm).trans absent⟩
  · rw [weigh_same _ threads index _ (.sleep dow) found rfl]
    exact holds.calls
  · refine forall_mem_set _ threads index _ (fun point elsewhere => ?_)
      (Or.inr fun absent => Option.some_ne_none next (written.symm.trans absent))
    have before := forall_mem_erase _ threads index holds.stands point elsewhere
    have apart (frame : Frame) (uses : point.frame? = some frame) : frame ≠ dow :=
      alone_uses once threads index _ frame dow holds found rfl point elsewhere uses
    cases point with
    | idle => trivial
    | enter frame => exact (other frame (apart frame rfl)).trans before
    | load frame => exact ⟨before.1, (other frame (apart frame rfl)).trans before.2⟩
    | attempt frame _ => exact ⟨before.1, (other frame (apart frame rfl)).trans before.2.1, before.2.2⟩
    | callout _ | broadcast _ | walk _ _ => exact before
    | signal _ head tmp =>
        have different : head ≠ dow := by
          rintro rfl
          exact Option.some_ne_none tmp (before.2.2.2.symm.trans missing)
        exact ⟨before.1, before.2.1, before.2.2.1, (other head different).trans before.2.2.2⟩
    | readThread frame _ | writeNext frame _ => exact ⟨before.1, (other frame (apart frame rfl)).trans before.2⟩
    | sleep frame =>
        refine before.imp_right fun some absent => some ?_
        exact (other frame (apart frame rfl)).symm.trans absent
    | fault => exact before

theorem sleep_kept (dow : Frame) (holds : Kept once threads) (found : threads[index]? = some (.sleep dow))
    (signalled : once.dowEvent dow ≠ 0) :
    Kept { once with dowEvent := Function.update once.dowEvent dow (once.dowEvent dow - 1) }.ret
      (threads.set index .idle) := by
  have done := holds.events dow signalled
  have known := used_of_member once threads _ dow holds (List.mem_of_getElem? found) rfl
  have other (frame : Frame) (different : frame ≠ dow) :
      Function.update once.dowEvent dow (once.dowEvent dow - 1) frame = once.dowEvent frame :=
    Function.update_of_ne different _ _
  refine ⟨holds.single, holds.begun, holds.empty, ?_, ?_, ?_, ?_, holds.top, fun frame => ?_, fun _ _ => done,
    fun _ => done, holds.distinct, holds.strung, holds.known, fun frame => ?_, fun frame outside => ?_, ?_, ?_⟩
  · rw [weigh_same _ threads index _ .idle found rfl]
    exact holds.working
  · rw [weigh_same _ threads index _ .idle found rfl]
    exact holds.running
  · rw [weigh_same _ threads index _ .idle found rfl]
    exact holds.owners
  · rw [weigh_same _ threads index _ .idle found rfl]
    exact holds.owned
  · have moves : weigh (Point.sleeps frame) (threads.set index .idle) + (if dow = frame then 1 else 0) =
      weigh (Point.sleeps frame) threads := weigh_set (Point.sleeps frame) threads index _ .idle found
    have sleepers := holds.sleepers frame
    change _ = once.stack.dropLast.count frame + Function.update once.dowEvent dow (once.dowEvent dow - 1) frame
    by_cases same : frame = dow
    · subst same
      rw [if_pos rfl] at moves
      rw [Function.update_self]
      omega
    · rw [if_neg (Ne.symm same)] at moves
      rw [other frame same]
      omega
  · exact uses_le threads index _ .idle holds.frames found (fun _ => Nat.zero_le _) frame
  · obtain ⟨unused, event, absent⟩ := holds.fresh frame outside
    exact ⟨fresh_uses threads index _ .idle found (fun _ => Nat.zero_le _) frame unused,
      (other frame (ne_of_mem_of_not_mem known outside).symm).trans event, absent⟩
  · have calls := holds.calls
    have busy : weigh Point.busy (threads.set index .idle) + 1 = weigh Point.busy threads :=
      weigh_set Point.busy threads index _ .idle found
    change once.used.length = once.returned + 1 + weigh Point.busy (threads.set index .idle)
    omega
  · refine forall_mem_set _ threads index _ (fun point elsewhere => ?_) trivial
    have before := forall_mem_erase _ threads index holds.stands point elsewhere
    cases point with
    | sleep frame =>
        have apart := alone_uses once threads index _ frame dow holds found rfl _ elsewhere rfl
        exact before.imp_left fun some absent => some ((other frame apart).symm.trans absent)
    | _ => exact before

theorem attempt_kept (dow : Frame) (next : Predicate) (holds : Kept once threads)
    (found : threads[index]? = some (.attempt dow next)) :
    Kept (attempt once dow next).1 (threads.set index (attempt once dow next).2) := by
  obtain ⟨⟨notNull, begun⟩, missing, done⟩ := holds.stands _ (List.mem_of_getElem? found)
  unfold attempt
  by_cases finished : next = .done
  · rw [if_pos finished]
    exact move_kept once threads index _ .idle holds found ⟨rfl, rfl, rfl, fun _ => rfl⟩ (fun _ => Nat.zero_le _)
      trivial (once.returned + 1) (fun _ => done finished) rfl
  · by_cases same : once.vval = next
    · rw [if_neg finished, if_pos same]
      cases next with
      | null => exact (notNull rfl).elim
      | done => exact (finished rfl).elim
      | waiter top => exact push_kept once threads index dow top holds found same
    · rw [if_neg finished, if_neg same]
      exact move_kept once threads index _ (.attempt dow once.vval) holds found ⟨rfl, rfl, rfl, fun _ => rfl⟩
        (fun _ => Nat.le_refl _) ⟨⟨begun, begun⟩, missing, id⟩ once.returned holds.returns rfl

theorem act_kept (action : Action) (next : Once) (holds : Kept once threads) (found : threads[index]? = some point)
    (acted : act action once point = some (next, moved)) : Kept next (threads.set index moved) := by
  have stands := holds.stands _ (List.mem_of_getElem? found)
  cases action with
  | call dow =>
      cases point with
      | idle =>
          obtain ⟨new, called⟩ := Option.ite_none_left_eq_some.mp acted
          have kept := call_kept once threads index dow holds found new
          rwa [Option.some.inj called] at kept
      | _ => cases acted
  | resume =>
      cases point with
      | idle | fault => cases acted
      | enter dow =>
          have kept := enter_kept once threads index dow holds found
          rwa [Option.some.inj acted] at kept
      | callout dow =>
          cases acted
          exact callout_kept once threads index dow holds found
      | broadcast dow =>
          have kept := broadcast_kept once threads index dow holds found
          rwa [Option.some.inj acted] at kept
      | walk dow head =>
          replace acted : walk once dow head = some (next, moved) := acted
          unfold walk at acted
          by_cases last : head = dow
          · rw [if_pos last] at acted
            cases acted
            exact finish_kept once threads index dow holds (last ▸ found)
          · rw [if_neg last] at acted
            obtain ⟨tmp, link, result⟩ := Option.map_eq_some_iff.mp acted
            cases result
            exact move_kept once threads index _ (.signal dow head tmp) holds found ⟨rfl, rfl, rfl, fun _ => rfl⟩
              (fun _ => Nat.le_refl _) ⟨stands.1, stands.2.1, stands.2.2, link⟩ once.returned holds.returns rfl
      | signal dow head tmp =>
          cases acted
          exact signal_kept once threads index dow head tmp holds found
      | load dow =>
          cases acted
          exact move_kept once threads index _ (.attempt dow once.vval) holds found ⟨rfl, rfl, rfl, fun _ => rfl⟩
            (fun _ => Nat.le_refl _) ⟨⟨stands.1, stands.1⟩, stands.2, id⟩ once.returned holds.returns rfl
      | attempt dow expected =>
          have kept := attempt_kept once threads index dow expected holds found
          rwa [Option.some.inj acted] at kept
      | readThread dow head =>
          cases acted
          exact move_kept once threads index _ (.writeNext dow head) holds found ⟨rfl, rfl, rfl, fun _ => rfl⟩
            (fun _ => Nat.le_refl _) stands once.returned holds.returns rfl
      | writeNext dow head =>
          cases acted
          exact write_kept once threads index dow head holds found
      | sleep dow =>
          obtain ⟨signalled, woken⟩ := Option.ite_none_left_eq_some.mp acted
          cases woken
          exact sleep_kept once threads index dow holds found signalled
  | retry =>
      cases point with
      | attempt dow expected =>
          obtain ⟨-, failed⟩ := Option.ite_none_left_eq_some.mp acted
          cases failed
          exact move_kept once threads index _ (.attempt dow once.vval) holds found ⟨rfl, rfl, rfl, fun _ => rfl⟩
            (fun _ => Nat.le_refl _) ⟨⟨stands.1.2, stands.1.2⟩, stands.2.1, id⟩ once.returned holds.returns rfl
      | _ => cases acted

def created (count : Nat) : System Once Point := ⟨.initial, List.replicate count .idle⟩

theorem created_kept (count : Nat) : Kept (created count).shared (created count).threads := by
  have nobody (weight : Point → Nat) (none : weight .idle = 0) : weigh weight (created count).threads = 0 := by
    rw [created, weigh_replicate, none, Nat.mul_zero]
  refine ⟨Nat.zero_le 1, iff_of_true rfl rfl, fun _ => rfl, ?_, ?_, ?_, fun more => (more rfl).elim, fun _ => nofun,
    fun frame => ?_, fun _ some => (some rfl).elim, fun some => (some rfl).elim, List.nodup_nil, trivial,
    fun _ => nofun,
    fun frame => ?_, fun frame _ => ⟨nobody _ rfl, rfl, rfl⟩, ?_, fun point member => ?_⟩
  · rw [nobody Point.working rfl]
    rfl
  · rw [nobody Point.running rfl]
    rfl
  · rw [nobody Point.owning rfl]
    exact Nat.zero_le _
  · rw [nobody (Point.sleeps frame) rfl]
    rfl
  · rw [nobody (Point.uses frame) rfl]
    exact Nat.zero_le 1
  · rw [nobody Point.busy rfl]
    rfl
  · rw [List.eq_of_mem_replicate member]
    trivial

theorem run_kept (count : Nat) (final : System Once Point) (events : List (Nat × Action))
    (ran : Runs.run (step act) (created count) events = some final) : Kept final.shared final.threads :=
  run_invariant act Kept (fun action once next threads index point moved holds found acted =>
    act_kept once threads index point moved action next holds found acted) (created count) final events ran
    (created_kept count)

-- The frames of other calls that the thread is about to read or write.
def Point.reads : Point → List Frame
  | .walk _ next | .signal _ next _ | .readThread _ next => [next]
  | _ => []

structure RunOnce (final : System Once Point) : Prop where
  single : final.shared.begun ≤ 1
  complete : final.shared.returned ≠ 0 → final.shared.ended = 1 ∧ final.shared.vval = .done
  alive : ∀ point ∈ final.threads, ∀ frame ∈ point.reads, ∃ other ∈ final.threads, other.frame? = some frame
  sound : .fault ∉ final.threads

theorem sleeper_alive (holds : Kept once threads) (frame : Frame) (member : frame ∈ once.stack.dropLast) :
    ∃ other ∈ threads, other.sleeps frame ≠ 0 := by
  have sleepers := holds.sleepers frame
  have counted : 0 < once.stack.dropLast.count frame := List.count_pos_iff.mpr member
  exact exists_of_weigh_pos (Point.sleeps frame) threads (by omega)

theorem owner_alive (holds : Kept once threads) (frame : Frame) (last : once.stack.getLast? = some frame)
    (owned : 0 < weigh Point.owning threads) : ∃ other ∈ threads, other.frame? = some frame ∧ other.owning ≠ 0 := by
  obtain ⟨other, member, owns⟩ := exists_of_weigh_pos Point.owning threads owned
  have stands := holds.stands other member
  refine ⟨other, member, ?_, owns⟩
  cases other with
  | callout dow | broadcast dow => exact stands.symm.trans last
  | walk dow _ | signal dow _ _ => exact stands.2.1.symm.trans last
  | _ => exact (owns rfl).elim

theorem member_split (frame : Frame) (member : frame ∈ once.stack) :
    frame ∈ once.stack.dropLast ∨ once.stack.getLast? = some frame := by
  obtain ⟨init, last, stack⟩ := (List.eq_nil_or_concat' once.stack).resolve_left (List.ne_nil_of_mem member)
  rw [stack, List.dropLast_concat, List.getLast?_concat]
  rw [stack] at member
  exact (List.mem_append.mp member).imp_right fun here => congrArg some (List.mem_singleton.mp here).symm

theorem stack_alive (holds : Kept once threads) (frame : Frame) (member : frame ∈ once.stack)
    (owned : 0 < weigh Point.owning threads) : ∃ other ∈ threads, other.frame? = some frame := by
  rcases member_split once frame member with waiting | last
  · obtain ⟨other, inside, sleeps⟩ := sleeper_alive once threads holds frame waiting
    refine ⟨other, inside, ?_⟩
    cases other with
    | readThread dow _ | writeNext dow _ | sleep dow =>
        exact congrArg some (of_not_not fun different : ¬ dow = frame => sleeps (if_neg different))
    | _ => exact (sleeps rfl).elim
  · obtain ⟨other, inside, same, -⟩ := owner_alive once threads holds frame last owned
    exact ⟨other, inside, same⟩

theorem returned_ended (holds : Kept once threads) (some : once.returned ≠ 0) : once.ended = 1 ∧ once.vval = .done := by
  have done := holds.returns some
  have working := holds.working
  have running := holds.running
  have single := holds.single
  have less : weigh Point.running threads ≤ weigh Point.working threads := by
    refine weigh_mono _ _ threads fun point => ?_
    cases point with
    | callout _ => exact Nat.le_refl 1
    | _ => exact Nat.zero_le _
  rw [if_pos done] at working
  exact ⟨by omega, done⟩

theorem once_runs (count : Nat) (final : System Once Point) (events : List (Nat × Action))
    (ran : Runs.run (step act) (created count) events = some final) : RunOnce final := by
  have holds := run_kept count final events ran
  refine ⟨holds.single, returned_ended final.shared final.threads holds, fun point member frame read => ?_,
    fun member => holds.stands _ member⟩
  have stands := holds.stands point member
  have owns := weight_le_weigh Point.owning final.threads point member
  cases point with
  | walk dow next =>
      cases List.mem_singleton.mp read
      exact stack_alive final.shared final.threads holds frame (List.mem_of_head? stands.2.2) owns
  | signal dow next tmp =>
      cases List.mem_singleton.mp read
      exact stack_alive final.shared final.threads holds frame (List.mem_of_head? stands.2.2.1) owns
  | readThread dow next =>
      cases List.mem_singleton.mp read
      have waiting := follows_drop final.shared.stack dow frame stands.1
      exact stack_alive final.shared final.threads holds frame (follows_mem _ _ _ stands.1).2
        (holds.owned (List.ne_nil_of_mem waiting))
  | _ => cases read

theorem once_runs_waiting : ∃ final : System Once Point,
    final.threads = [.walk 7 9, .sleep 8, .readThread 9 8] ∧ RunOnce final := by
  have ran : (Runs.run (step act) (created 3)
    [(0, .call 7), (0, .resume), (1, .call 8), (1, .resume), (1, .resume), (1, .resume), (2, .call 9), (2, .resume),
      (2, .resume), (1, .resume), (1, .resume), (0, .resume), (2, .resume), (0, .resume)]).isSome = true := by decide
  exact ⟨_, rfl, once_runs 3 _ _ (Option.some_get ran).symm⟩

structure Finished (final : System Once Point) : Prop where
  idle : ∀ point ∈ final.threads, point = .idle
  calls : final.shared.returned = final.shared.used.length
  ended : final.shared.used ≠ [] → final.shared.ended = 1

theorem once_finishes (count : Nat) (final : System Once Point) (events : List (Nat × Action))
    (ran : Runs.run (step act) (created count) events = some final)
    (stuck : ∀ index < final.threads.length, step act final (index, .resume) = none) : Finished final := by
  have holds := run_kept count final events ran
  have blocked (point : Point) (member : point ∈ final.threads) : act .resume final.shared point = none := by
    obtain ⟨index, inside, found⟩ := List.mem_iff_getElem.mp member
    have here := stuck index inside
    rwa [step, List.getElem?_eq_getElem inside, found, Option.bind_some, Option.map_eq_none_iff] at here
  have noWalk (dow next : Frame) (member : .walk dow next ∈ final.threads) : False := by
    have here : walk final.shared dow next = none := blocked _ member
    obtain ⟨-, last, first⟩ := holds.stands _ member
    unfold walk at here
    by_cases same : next = dow
    · rw [if_pos same] at here
      cases here
    · rw [if_neg same, Option.map_eq_none_iff] at here
      have waiting := (member_split final.shared next (List.mem_of_head? first)).resolve_right fun ended =>
        same (Option.some.inj (ended.symm.trans last))
      obtain ⟨other, inside, sleeps⟩ := sleeper_alive final.shared final.threads holds next waiting
      cases other with
      | readThread _ _ | writeNext _ _ => exact Option.some_ne_none _ (blocked _ inside)
      | sleep frame =>
          cases of_not_not fun different : ¬ frame = next => sleeps (if_neg different)
          rcases holds.stands _ inside with signalled | linked
          · exact Option.some_ne_none _ ((if_neg signalled).symm.trans (blocked _ inside))
          · exact linked here
      | _ => exact sleeps rfl
  have idle (point : Point) (member : point ∈ final.threads) : point = .idle := by
    cases point with
    | idle => rfl
    | walk dow next => exact (noWalk dow next member).elim
    | fault => exact (holds.stands _ member).elim
    | sleep dow =>
        have asleep : final.shared.dowEvent dow = 0 := by
          by_contra signalled
          exact Option.some_ne_none _ ((if_neg signalled).symm.trans (blocked _ member))
        have counted : 0 < weigh (Point.sleeps dow) final.threads :=
          Nat.lt_of_lt_of_le (by rw [Point.sleeps, if_pos rfl]; exact Nat.one_pos)
            (weight_le_weigh (Point.sleeps dow) final.threads _ member)
        have sleepers := holds.sleepers dow
        have waiting : dow ∈ final.shared.stack.dropLast := List.count_pos_iff.mp (by omega)
        obtain ⟨other, inside, owns⟩ :=
          exists_of_weigh_pos Point.owning final.threads (holds.owned (List.ne_nil_of_mem waiting))
        cases other with
        | callout _ | broadcast _ | signal _ _ _ => exact (Option.some_ne_none _ (blocked _ inside)).elim
        | walk owner next => exact (noWalk owner next inside).elim
        | _ => exact (owns rfl).elim
    | _ => exact (Option.some_ne_none _ (blocked _ member)).elim
  have nobody : weigh Point.busy final.threads = 0 :=
    (weigh_eq_zero_iff _ _).mpr fun point member => by rw [idle point member]; rfl
  have calls := holds.calls
  refine ⟨idle, by omega, fun some => ?_⟩
  have returned : final.shared.returned ≠ 0 := by
    have length := List.length_pos_of_ne_nil some
    omega
  exact (returned_ended final.shared final.threads holds returned).1

theorem once_finishes_waiting : ∃ final : System Once Point,
    final.shared.used = [9, 8, 7] ∧ final.shared.ended = 1 ∧ Finished final := by
  have ran : (Runs.run (step act) (created 3)
    [(0, .call 7), (0, .resume), (1, .call 8), (1, .resume), (1, .resume), (1, .resume), (2, .call 9), (2, .resume),
      (2, .resume), (1, .resume), (1, .resume), (0, .resume), (2, .resume), (0, .resume),
      (2, .resume), (2, .resume), (0, .resume), (0, .resume), (0, .resume), (0, .resume), (0, .resume), (1, .resume),
      (2, .resume)]).isSome = true := by decide
  refine ⟨_, rfl, rfl, once_finishes 3 _ _ (Option.some_get ran).symm fun index _ => ?_⟩
  match index with
  | 0 => rfl
  | 1 => rfl
  | 2 => rfl
  | index + 3 => rfl

end CultivationMotain.Dispatch.DispatchOnce

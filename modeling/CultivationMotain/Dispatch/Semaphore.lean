import CultivationMotain.Dispatch.Words
import CultivationMotain.Library.Threads
import CultivationMotain.Library.Weights

set_option autoImplicit false

namespace CultivationMotain.Dispatch

open Threads Weights

def dispatchTimeNow : UInt64 := 0

def dispatchTimeForever : UInt64 := 0xffffffffffffffff

inductive Returned where
  | signal (result : Int)
  | wait (result : Int)
deriving DecidableEq, Repr

-- dsemaSem is the count of the kernel's semaphore; returned is a ghost, the
-- results of the calls that have returned.
structure Semaphore where
  dsemaValue : Int
  dsemaOrig : Int
  dsemaSem : Nat
  crashed : Bool
  returned : List Returned
deriving DecidableEq, Repr

-- Where a thread is in the calls on the semaphore: undo is before the load of
-- the value, undoing holds the value that the compare and exchange expects.
inductive Point where
  | idle
  | signalSlow
  | timedwait
  | undo
  | undoing (orig : Int)
  | wait
deriving DecidableEq, Repr

-- resume is the thread's next instruction, or its call of the kernel when that
-- succeeds; retry is a call that was interrupted and a compare and exchange
-- that failed for no reason; expire is a timeout.
inductive Action where
  | signal
  | wait (timeout : UInt64)
  | resume
  | retry
  | expire
deriving DecidableEq, Repr

def dispatchSemaphoreCreate (value : Int64) : Option Semaphore :=
  if value < 0 then none
  else some { dsemaValue := value.toInt, dsemaOrig := value.toInt, dsemaSem := 0, crashed := false, returned := [] }

-- false: the process crashes on a semaphore that is in use.
def semaphoreDispose (sema : Semaphore) : Bool := !decide (sema.dsemaValue < sema.dsemaOrig)

def Semaphore.log (sema : Semaphore) (result : Returned) : Semaphore :=
  { sema with returned := result :: sema.returned }

def semaphoreSignalSlow (sema : Semaphore) : Semaphore :=
  { sema with dsemaSem := sema.dsemaSem + 1 }.log (.signal 1)

def dispatchSemaphoreSignal (sema : Semaphore) : Semaphore × Point :=
  let value := wrapped (sema.dsemaValue + 1)
  let sema := { sema with dsemaValue := value }
  if 0 < value then (sema.log (.signal 0), .idle)
  else if value = longMin then ({ sema with crashed := true }, .idle)
  else (sema, .signalSlow)

def semaphoreWaitSlow (timeout : UInt64) : Point :=
  if timeout = dispatchTimeNow then .undo
  else if timeout = dispatchTimeForever then .wait
  else .timedwait

def dispatchSemaphoreWait (sema : Semaphore) (timeout : UInt64) : Semaphore × Point :=
  let value := wrapped (sema.dsemaValue - 1)
  let sema := { sema with dsemaValue := value }
  if 0 ≤ value then (sema.log (.wait 0), .idle)
  else (sema, semaphoreWaitSlow timeout)

-- sem_wait and sem_timedwait block while the count is zero.
def semWait (sema : Semaphore) : Option (Semaphore × Point) :=
  if sema.dsemaSem = 0 then none
  else some ({ sema with dsemaSem := sema.dsemaSem - 1 }.log (.wait 0), .idle)

def compareExchange (sema : Semaphore) (orig : Int) : Semaphore × Point :=
  if orig < 0 then
    if sema.dsemaValue = orig then ({ sema with dsemaValue := orig + 1 }.log (.wait (-1)), .idle)
    else (sema, .undoing sema.dsemaValue)
  else (sema, .wait)

def turn : Action → Semaphore → Point → Option (Semaphore × Point)
  | .signal, sema, .idle => some (dispatchSemaphoreSignal sema)
  | .wait timeout, sema, .idle => some (dispatchSemaphoreWait sema timeout)
  | .resume, sema, .signalSlow => some (semaphoreSignalSlow sema, .idle)
  | .resume, sema, .timedwait => semWait sema
  | .retry, sema, .timedwait => some (sema, .timedwait)
  | .expire, sema, .timedwait => some (sema, .undo)
  | .resume, sema, .undo => some (sema, .undoing sema.dsemaValue)
  | .resume, sema, .undoing orig => some (compareExchange sema orig)
  | .retry, sema, .undoing orig => if orig < 0 then some (sema, .undoing sema.dsemaValue) else none
  | .resume, sema, .wait => semWait sema
  | .retry, sema, .wait => some (sema, .wait)
  | _, _, _ => none

def act (action : Action) (sema : Semaphore) (point : Point) : Option (Semaphore × Point) :=
  if sema.crashed then none else turn action sema point

def Point.posting : Point → Nat
  | .signalSlow => 1
  | _ => 0

def Point.waiting : Point → Nat
  | .timedwait | .undo | .undoing _ | .wait => 1
  | .idle | .signalSlow => 0

def Returned.isSignal : Returned → Bool
  | .signal _ => true
  | .wait _ => false

def Returned.isAcquired : Returned → Bool
  | .signal _ => false
  | .wait result => result == 0

def Semaphore.signalled (sema : Semaphore) : Nat := sema.returned.countP Returned.isSignal

def Semaphore.acquired (sema : Semaphore) : Nat := sema.returned.countP Returned.isAcquired

@[simp] theorem signalled_signal (sema : Semaphore) (result : Int) :
    (sema.log (.signal result)).signalled = sema.signalled + 1 := List.countP_cons_of_pos rfl

@[simp] theorem signalled_wait (sema : Semaphore) (result : Int) :
    (sema.log (.wait result)).signalled = sema.signalled := List.countP_cons_of_neg Bool.false_ne_true

@[simp] theorem acquired_signal (sema : Semaphore) (result : Int) :
    (sema.log (.signal result)).acquired = sema.acquired := List.countP_cons_of_neg Bool.false_ne_true

@[simp] theorem acquired_wait (sema : Semaphore) : (sema.log (.wait 0)).acquired = sema.acquired + 1 :=
  List.countP_cons_of_pos rfl

@[simp] theorem acquired_expired (sema : Semaphore) : (sema.log (.wait (-1))).acquired = sema.acquired :=
  List.countP_cons_of_neg (by decide)

theorem wrapped_eq (value : Int) (low : longMin ≤ value) (high : value ≤ longMax) : wrapped value = value := by
  unfold longMin at low
  unfold longMax at high
  rw [wrapped, Int.bmod_eq_of_le (by omega) (by omega)]

theorem wrapped_overflow : wrapped (longMax + 1) = longMin := by decide

-- The permits of the semaphore: every one is free, on its way to a thread
-- through the kernel, or taken.
structure Balanced (orig : Int) (sema : Semaphore) (threads : List Point) : Prop where
  permits : sema.dsemaOrig + sema.signalled = sema.acquired + max sema.dsemaValue 0 + sema.dsemaSem
  waiters : (weigh Point.waiting threads : Int) =
    max (-sema.dsemaValue) 0 + sema.dsemaSem + weigh Point.posting threads
  bound : sema.dsemaValue ≤ longMax
  running : sema.crashed = false
  origin : sema.dsemaOrig = orig

-- The state after the crash of dispatch_semaphore_signal.
def Overflown (orig : Int) (sema : Semaphore) : Prop :=
  sema.crashed = true ∧ sema.dsemaOrig + sema.signalled = sema.acquired + longMax + sema.dsemaSem ∧
    sema.dsemaOrig = orig

def Kept (orig : Int) (sema : Semaphore) (threads : List Point) : Prop :=
  Balanced orig sema threads ∨ Overflown orig sema

theorem waiting_le_one (point : Point) : point.waiting ≤ 1 := by
  cases point <;> simp [Point.waiting]

theorem value_low (origin : Int) (sema : Semaphore) (threads : List Point) (holds : Balanced origin sema threads)
    (few : (threads.length : Int) ≤ longMax) : -longMax ≤ sema.dsemaValue := by
  have bound := weigh_le_length Point.waiting threads waiting_le_one
  have waiters := holds.waiters
  omega

variable (origin : Int) (sema : Semaphore) (threads : List Point) (index : Nat)

theorem move_balanced (point moved : Point) (holds : Balanced origin sema threads)
    (found : threads[index]? = some point)
    (waiting : moved.waiting = point.waiting) (posting : moved.posting = point.posting) :
    Balanced origin sema (threads.set index moved) := by
  obtain ⟨permits, waiters, bound, running, originally⟩ := holds
  have waits := weigh_set Point.waiting threads index point moved found
  have posts := weigh_set Point.posting threads index point moved found
  exact ⟨permits, by omega, bound, running, originally⟩

theorem signal_kept (holds : Balanced origin sema threads) (few : (threads.length : Int) ≤ longMax)
    (found : threads[index]? = some .idle) :
    Kept origin (dispatchSemaphoreSignal sema).1 (threads.set index (dispatchSemaphoreSignal sema).2) := by
  have low := value_low origin sema threads holds few
  obtain ⟨permits, waiters, bound, running, originally⟩ := holds
  by_cases full : sema.dsemaValue = longMax
  · have crash : dispatchSemaphoreSignal sema = ({ sema with dsemaValue := longMin, crashed := true }, .idle) := by
      rw [dispatchSemaphoreSignal, full, wrapped_overflow]
      rfl
    have free : max sema.dsemaValue 0 = longMax := by rw [full]; decide
    rw [free] at permits
    rw [crash]
    exact Or.inr ⟨rfl, permits, originally⟩
  · have value : wrapped (sema.dsemaValue + 1) = sema.dsemaValue + 1 :=
      wrapped_eq _ (by unfold longMin; unfold longMax at low; omega) (by omega)
    simp only [dispatchSemaphoreSignal, value]
    by_cases positive : 0 < sema.dsemaValue + 1
    · have waits := weigh_set Point.waiting threads index .idle .idle found
      have posts := weigh_set Point.posting threads index .idle .idle found
      rw [if_pos positive]
      refine Or.inl ⟨?_, ?_, ?_, running, originally⟩
      · rw [signalled_signal, acquired_signal]
        change sema.dsemaOrig + (sema.signalled + 1 : Nat) =
          sema.acquired + max (sema.dsemaValue + 1) 0 + sema.dsemaSem
        omega
      · change (weigh Point.waiting (threads.set index .idle) : Int) = max (-(sema.dsemaValue + 1)) 0 +
          sema.dsemaSem + weigh Point.posting (threads.set index .idle)
        omega
      · change sema.dsemaValue + 1 ≤ longMax
        omega
    · have waits := weigh_set Point.waiting threads index .idle .signalSlow found
      have posts := weigh_set Point.posting threads index .idle .signalSlow found
      have inRange : sema.dsemaValue + 1 ≠ longMin := by unfold longMin; unfold longMax at low; omega
      rw [if_neg positive, if_neg inRange]
      simp only [Point.waiting, Point.posting] at waits posts
      refine Or.inl ⟨?_, ?_, ?_, running, originally⟩
      · change sema.dsemaOrig + sema.signalled = sema.acquired + max (sema.dsemaValue + 1) 0 + sema.dsemaSem
        omega
      · change (weigh Point.waiting (threads.set index .signalSlow) : Int) = max (-(sema.dsemaValue + 1)) 0 +
          sema.dsemaSem + weigh Point.posting (threads.set index .signalSlow)
        omega
      · change sema.dsemaValue + 1 ≤ longMax
        omega

theorem post_balanced (holds : Balanced origin sema threads) (found : threads[index]? = some .signalSlow) :
    Balanced origin (semaphoreSignalSlow sema) (threads.set index .idle) := by
  obtain ⟨permits, waiters, bound, running, originally⟩ := holds
  have waits := weigh_set Point.waiting threads index .signalSlow .idle found
  have posts := weigh_set Point.posting threads index .signalSlow .idle found
  simp only [Point.waiting, Point.posting] at waits posts
  refine ⟨?_, ?_, bound, running, originally⟩
  · rw [semaphoreSignalSlow, signalled_signal, acquired_signal]
    change sema.dsemaOrig + (sema.signalled + 1 : Nat) = sema.acquired + max sema.dsemaValue 0 +
      (sema.dsemaSem + 1 : Nat)
    omega
  · change (weigh Point.waiting (threads.set index .idle) : Int) = max (-sema.dsemaValue) 0 +
      (sema.dsemaSem + 1 : Nat) + weigh Point.posting (threads.set index .idle)
    omega

theorem sem_wait_balanced (point moved : Point) (next : Semaphore) (holds : Balanced origin sema threads)
    (found : threads[index]? = some point) (waiting : point.waiting = 1) (posting : point.posting = 0)
    (waited : semWait sema = some (next, moved)) : Balanced origin next (threads.set index moved) := by
  unfold semWait at waited
  by_cases empty : sema.dsemaSem = 0
  · rw [if_pos empty] at waited
    cases waited
  · rw [if_neg empty] at waited
    cases waited
    obtain ⟨permits, waiters, bound, running, originally⟩ := holds
    have waits := weigh_set Point.waiting threads index point .idle found
    have posts := weigh_set Point.posting threads index point .idle found
    rw [waiting] at waits
    rw [posting] at posts
    simp only [Point.waiting, Point.posting] at waits posts
    refine ⟨?_, ?_, bound, running, originally⟩
    · rw [signalled_wait, acquired_wait]
      change sema.dsemaOrig + sema.signalled = (sema.acquired + 1 : Nat) + max sema.dsemaValue 0 +
        (sema.dsemaSem - 1 : Nat)
      omega
    · change (weigh Point.waiting (threads.set index .idle) : Int) = max (-sema.dsemaValue) 0 +
        (sema.dsemaSem - 1 : Nat) + weigh Point.posting (threads.set index .idle)
      omega

theorem slow_waiting (timeout : UInt64) :
    (semaphoreWaitSlow timeout).waiting = 1 ∧ (semaphoreWaitSlow timeout).posting = 0 := by
  unfold semaphoreWaitSlow
  by_cases now : timeout = dispatchTimeNow
  · rw [if_pos now]
    exact ⟨rfl, rfl⟩
  · by_cases forever : timeout = dispatchTimeForever
    · rw [if_neg now, if_pos forever]
      exact ⟨rfl, rfl⟩
    · rw [if_neg now, if_neg forever]
      exact ⟨rfl, rfl⟩

theorem wait_balanced (timeout : UInt64) (holds : Balanced origin sema threads) (few : (threads.length : Int) ≤ longMax)
    (found : threads[index]? = some .idle) :
    Balanced origin (dispatchSemaphoreWait sema timeout).1
      (threads.set index (dispatchSemaphoreWait sema timeout).2) := by
  have low := value_low origin sema threads holds few
  obtain ⟨permits, waiters, bound, running, originally⟩ := holds
  have value : wrapped (sema.dsemaValue - 1) = sema.dsemaValue - 1 :=
    wrapped_eq _ (by unfold longMin; unfold longMax at low; omega) (by omega)
  simp only [dispatchSemaphoreWait, value]
  by_cases positive : 0 ≤ sema.dsemaValue - 1
  · have waits := weigh_set Point.waiting threads index .idle .idle found
    have posts := weigh_set Point.posting threads index .idle .idle found
    rw [if_pos positive]
    refine ⟨?_, ?_, ?_, running, originally⟩
    · rw [signalled_wait, acquired_wait]
      change sema.dsemaOrig + sema.signalled = (sema.acquired + 1 : Nat) + max (sema.dsemaValue - 1) 0 +
        sema.dsemaSem
      omega
    · change (weigh Point.waiting (threads.set index .idle) : Int) = max (-(sema.dsemaValue - 1)) 0 +
        sema.dsemaSem + weigh Point.posting (threads.set index .idle)
      omega
    · change sema.dsemaValue - 1 ≤ longMax
      omega
  · obtain ⟨waiting, posting⟩ := slow_waiting timeout
    have waits := weigh_set Point.waiting threads index .idle (semaphoreWaitSlow timeout) found
    have posts := weigh_set Point.posting threads index .idle (semaphoreWaitSlow timeout) found
    rw [waiting] at waits
    rw [posting] at posts
    rw [if_neg positive]
    simp only [Point.waiting, Point.posting] at waits posts
    refine ⟨?_, ?_, ?_, running, originally⟩
    · change sema.dsemaOrig + sema.signalled = sema.acquired + max (sema.dsemaValue - 1) 0 + sema.dsemaSem
      omega
    · change (weigh Point.waiting (threads.set index (semaphoreWaitSlow timeout)) : Int) =
        max (-(sema.dsemaValue - 1)) 0 + sema.dsemaSem +
        weigh Point.posting (threads.set index (semaphoreWaitSlow timeout))
      omega
    · change sema.dsemaValue - 1 ≤ longMax
      omega

theorem exchange_balanced (orig : Int) (holds : Balanced origin sema threads)
    (found : threads[index]? = some (.undoing orig)) :
    Balanced origin (compareExchange sema orig).1 (threads.set index (compareExchange sema orig).2) := by
  unfold compareExchange
  by_cases negative : orig < 0
  · by_cases same : sema.dsemaValue = orig
    · rw [if_pos negative, if_pos same]
      obtain ⟨permits, waiters, bound, running, originally⟩ := holds
      have waits := weigh_set Point.waiting threads index (.undoing orig) .idle found
      have posts := weigh_set Point.posting threads index (.undoing orig) .idle found
      simp only [Point.waiting, Point.posting] at waits posts
      refine ⟨?_, ?_, ?_, running, originally⟩
      · rw [signalled_wait, acquired_expired]
        change sema.dsemaOrig + sema.signalled = sema.acquired + max (orig + 1) 0 + sema.dsemaSem
        omega
      · change (weigh Point.waiting (threads.set index .idle) : Int) = max (-(orig + 1)) 0 + sema.dsemaSem +
          weigh Point.posting (threads.set index .idle)
        omega
      · change orig + 1 ≤ longMax
        unfold longMax
        omega
    · rw [if_pos negative, if_neg same]
      exact move_balanced origin sema threads index (.undoing orig) _ holds found rfl rfl
  · rw [if_neg negative]
    exact move_balanced origin sema threads index (.undoing orig) _ holds found rfl rfl

theorem turn_kept (action : Action) (next : Semaphore) (point moved : Point) (holds : Balanced origin sema threads)
    (few : (threads.length : Int) ≤ longMax) (found : threads[index]? = some point)
    (taken : turn action sema point = some (next, moved)) : Kept origin next (threads.set index moved) := by
  cases action with
  | signal =>
      cases point with
      | idle =>
          have signals := signal_kept origin sema threads index holds few found
          rwa [Option.some.inj taken] at signals
      | signalSlow | timedwait | undo | undoing _ | wait => cases taken
  | wait timeout =>
      cases point with
      | idle =>
          have waits := wait_balanced origin sema threads index timeout holds few found
          rw [Option.some.inj taken] at waits
          exact Or.inl waits
      | signalSlow | timedwait | undo | undoing _ | wait => cases taken
  | resume =>
      cases point with
      | idle => cases taken
      | signalSlow =>
          cases taken
          exact Or.inl (post_balanced origin sema threads index holds found)
      | timedwait =>
          exact Or.inl (sem_wait_balanced origin sema threads index .timedwait moved next holds found rfl rfl taken)
      | undo =>
          cases taken
          exact Or.inl (move_balanced origin sema threads index .undo _ holds found rfl rfl)
      | undoing orig =>
          have moves := exchange_balanced origin sema threads index orig holds found
          rw [Option.some.inj taken] at moves
          exact Or.inl moves
      | wait => exact Or.inl (sem_wait_balanced origin sema threads index .wait moved next holds found rfl rfl taken)
  | retry =>
      cases point with
      | idle | signalSlow | undo => cases taken
      | timedwait | wait =>
          cases taken
          exact Or.inl (move_balanced origin sema threads index _ _ holds found rfl rfl)
      | undoing orig =>
          obtain ⟨-, loaded⟩ := Option.ite_none_right_eq_some.mp taken
          cases loaded
          exact Or.inl (move_balanced origin sema threads index (.undoing orig) _ holds found rfl rfl)
  | expire =>
      cases point <;> cases taken
      exact Or.inl (move_balanced origin sema threads index .timedwait _ holds found rfl rfl)

-- count threads that have not called the semaphore yet.
def created (sema : Semaphore) (count : Nat) : System Semaphore Point := ⟨sema, List.replicate count .idle⟩

-- No thread can go on by itself: each is out of the calls, or the kernel blocks it.
def Settled (final : System Semaphore Point) : Prop :=
  ∀ index < final.threads.length, step act final (index, .resume) = none

instance (final : System Semaphore Point) : Decidable (Settled final) :=
  inferInstanceAs (Decidable (∀ index < final.threads.length, step act final (index, .resume) = none))

structure SettledPermits (orig : Int) (final : System Semaphore Point) : Prop where
  drained : final.shared.dsemaSem = 0
  value : final.shared.dsemaValue =
    orig + final.shared.signalled - final.shared.acquired - weigh Point.waiting final.threads
  claimed : 0 < weigh Point.waiting final.threads → orig + final.shared.signalled = final.shared.acquired
  disposes : semaphoreDispose final.shared = true ↔
    final.shared.acquired + weigh Point.waiting final.threads ≤ final.shared.signalled

theorem created_balanced (value : Int64) (count : Nat) (create : dispatchSemaphoreCreate value = some sema) :
    Balanced value.toInt sema (List.replicate count .idle) := by
  obtain ⟨nonnegative, made⟩ := Option.ite_none_left_eq_some.mp create
  cases made
  have low : 0 ≤ value.toInt := Int64.le_iff_toInt_le.mp (Int64.not_lt.mp nonnegative)
  have high := Int64.toInt_lt value
  have nobody (weight : Point → Nat) (none : weight .idle = 0) :
      weigh weight (List.replicate count .idle) = 0 := by rw [weigh_replicate, none, Nat.mul_zero]
  refine ⟨?_, ?_, ?_, rfl, rfl⟩
  · change value.toInt + (0 : Nat) = (0 : Nat) + max value.toInt 0 + (0 : Nat)
    omega
  · rw [nobody Point.waiting rfl, nobody Point.posting rfl]
    change ((0 : Nat) : Int) = max (-value.toInt) 0 + (0 : Nat) + (0 : Nat)
    omega
  · change value.toInt ≤ longMax
    unfold longMax
    omega

theorem act_kept (action : Action) (next : Semaphore) (point moved : Point) (holds : Kept origin sema threads)
    (few : (threads.length : Int) ≤ longMax) (found : threads[index]? = some point)
    (acted : act action sema point = some (next, moved)) : Kept origin next (threads.set index moved) := by
  obtain ⟨running, taken⟩ := Option.ite_none_left_eq_some.mp acted
  rcases holds with balanced | overflown
  · exact turn_kept origin sema threads index action next point moved balanced few found taken
  · exact (running overflown.1).elim

theorem run_kept (value : Int64) (count : Nat) (few : (count : Int) ≤ longMax)
    (create : dispatchSemaphoreCreate value = some sema) (final : System Semaphore Point) (events : List (Nat × Action))
    (ran : Runs.run (step act) (created sema count) events = some final) :
    Kept value.toInt final.shared final.threads := by
  have kept := run_invariant act
    (fun shared threads => (threads.length : Int) ≤ longMax ∧ Kept value.toInt shared threads)
    (fun action shared next threads index point moved holds found acted =>
      ⟨by rw [List.length_set]; exact holds.1,
        act_kept value.toInt shared threads index action next point moved holds.2 holds.1 found acted⟩)
    (created sema count) final events ran
    ⟨by rw [created, List.length_replicate]; exact few, Or.inl (created_balanced sema value count create)⟩
  exact kept.2

theorem settled_point (final : System Semaphore Point) (running : final.shared.crashed = false)
    (settled : Settled final) (point : Point) (member : point ∈ final.threads) :
    point.posting = 0 ∧ (final.shared.dsemaSem ≠ 0 → point.waiting = 0) := by
  obtain ⟨index, inside, found⟩ := List.mem_iff_getElem.mp member
  have stuck := settled index inside
  rw [step, List.getElem?_eq_getElem inside, found, Option.bind_some, Option.map_eq_none_iff, act, running,
    if_neg Bool.false_ne_true] at stuck
  cases point with
  | idle => exact ⟨rfl, fun _ => rfl⟩
  | signalSlow | undo | undoing _ => cases stuck
  | timedwait | wait => exact ⟨rfl, fun full => (Option.some_ne_none _ ((if_neg full).symm.trans stuck)).elim⟩

theorem permits_conserved (value : Int64) (count : Nat) (few : (count : Int) ≤ longMax)
    (create : dispatchSemaphoreCreate value = some sema) (final : System Semaphore Point) (events : List (Nat × Action))
    (ran : Runs.run (step act) (created sema count) events = some final) :
    (final.shared.acquired : Int) ≤ value.toInt + final.shared.signalled ∧
      Kept value.toInt final.shared final.threads := by
  have kept := run_kept sema value count few create final events ran
  refine ⟨?_, kept⟩
  rcases kept with balanced | ⟨-, permits, originally⟩
  · have permits := balanced.permits
    have originally := balanced.origin
    omega
  · unfold longMax at permits
    omega

theorem permits_conserved_timed : ∃ final : System Semaphore Point,
    final = ⟨⟨0, 1, 0, false, [.wait 0, .signal 1, .wait (-1), .wait 0]⟩, [.idle, .idle, .idle]⟩ ∧
      (final.shared.acquired : Int) ≤ (1 : Int64).toInt + final.shared.signalled ∧
      Kept (1 : Int64).toInt final.shared final.threads :=
  ⟨_, rfl, permits_conserved ⟨1, 1, 0, false, []⟩ 1 3 (by decide) (by decide) _
    [(0, .wait dispatchTimeForever), (1, .wait 5000), (2, .wait dispatchTimeForever), (1, .expire), (1, .resume),
      (0, .signal), (1, .resume), (1, .resume), (0, .resume), (2, .resume)] (by decide)⟩

theorem wakeups_kept (value : Int64) (count : Nat) (few : (count : Int) ≤ longMax)
    (create : dispatchSemaphoreCreate value = some sema) (final : System Semaphore Point) (events : List (Nat × Action))
    (ran : Runs.run (step act) (created sema count) events = some final) (running : final.shared.crashed = false)
    (settled : Settled final) : SettledPermits value.toInt final := by
  rcases run_kept sema value count few create final events ran with balanced | overflown
  · obtain ⟨permits, waiters, -, -, originally⟩ := balanced
    have points := settled_point final running settled
    have posting : weigh Point.posting final.threads = 0 :=
      (weigh_eq_zero_iff _ _).mpr fun point member => (points point member).1
    have drained : final.shared.dsemaSem = 0 := by
      by_contra full
      have nobody : weigh Point.waiting final.threads = 0 :=
        (weigh_eq_zero_iff _ _).mpr fun point member => (points point member).2 full
      omega
    have balance : final.shared.dsemaValue =
        value.toInt + final.shared.signalled - final.shared.acquired - weigh Point.waiting final.threads := by omega
    refine ⟨drained, balance, fun waits => by omega, ?_⟩
    rw [semaphoreDispose, Bool.not_eq_true', decide_eq_false_iff_not]
    omega
  · exact Bool.noConfusion (running.symm.trans overflown.1)

theorem wakeups_kept_blocked :
    SettledPermits (1 : Int64).toInt ⟨⟨-1, 1, 0, false, [.wait (-1), .wait 0]⟩, [.idle, .wait, .idle]⟩ :=
  wakeups_kept ⟨1, 1, 0, false, []⟩ 1 3 (by decide) (by decide) _
    [(0, .wait dispatchTimeNow), (1, .wait dispatchTimeForever), (2, .wait dispatchTimeNow), (2, .resume), (2, .resume)]
    (by decide) rfl (by decide)

end CultivationMotain.Dispatch

import CultivationMotain.Dispatch.Semaphore

set_option autoImplicit false

namespace CultivationMotain.Dispatch.Groups

open Threads Weights

-- A continuation of dispatch_group_notify; one that is allocated anew has an
-- identity of its own.
abbrev Node := Nat

-- The list of dispatch_group_notify and the links of its continuations. The
-- last four are ghosts: the blocks that were registered, those that were given
-- to their queue, those on the list now, and the one behind each.
structure NotifyList where
  dgNotifyHead : Option Node
  dgNotifyTail : Option Node
  doNext : Node → Option Node
  registered : List Node
  submitted : List Node
  listed : List Node
  behind : Node → Option Node

-- dgWaiters is an int without its sign. dgSem is the count of the kernel's
-- semaphore, doRefCnt the references that the group keeps on itself.
structure Group extends NotifyList where
  dgValue : Int
  dgWaiters : Nat
  dgSem : Nat
  doRefCnt : Int
  crashed : Bool

-- _dispatch_group_create_with_count.
def createWithCount (count : Int) : Group where
  dgValue := count
  dgWaiters := 0
  dgSem := 0
  dgNotifyHead := none
  dgNotifyTail := none
  doNext := fun _ => none
  doRefCnt := if count ≠ 0 then 1 else 0
  crashed := false
  registered := []
  submitted := []
  listed := []
  behind := fun _ => none

def dispatchGroupCreate : Group := createWithCount 0

def groupCreateAndEnter : Group := createWithCount 1

-- What a call goes on with after _dispatch_group_wake.
inductive After where
  | leave
  | waitReturn
  | waitSleep
  | notify
deriving DecidableEq, Repr

-- The head and the tail that a wake has taken; nodes is a ghost.
structure Snapshot where
  head : Node
  tail : Node
  nodes : List Node
deriving DecidableEq, Repr

inductive Point where
  | idle
  | enterRetain
  | wakeHead (after : After)
  | wakeTail (head : Node) (after : After)
  | wakeWaiters (snapshot : Option Snapshot) (after : After)
  | wakePost (rval : Nat) (snapshot : Option Snapshot) (after : After)
  | wakeSubmit (snapshot : Snapshot) (after : After)
  | wakeReleaseList (after : After)
  | wakeRelease
  | waitSlow (timeout : UInt64)
  | waitCount (timeout : UInt64)
  | waitCheck (timeout : UInt64)
  | timedwait
  | undo
  | undoing (origWaiters : Nat)
  | wait
  | notifyLink (prev dsn : Node)
  | notifyRetain (dsn : Node)
  | notifyPublish (dsn : Node)
  | notifyCheck
deriving DecidableEq, Repr

inductive Action where
  | enter
  | leave
  | wait (timeout : UInt64)
  | notify (dsn : Node)
  | resume
  | retry
  | expire
deriving DecidableEq, Repr

-- A negative value is a large one as an unsigned long.
def dispatchGroupEnter (group : Group) : Group × Point :=
  let value := group.dgValue
  let group := { group with dgValue := value + 1 }
  if value < 0 ∨ longMax ≤ value then ({ group with crashed := true }, .idle)
  else if value = 0 then (group, .enterRetain)
  else (group, .idle)

def dispatchGroupLeave (group : Group) : Group × Point :=
  let value := group.dgValue - 1
  let group := { group with dgValue := value }
  if value = 0 then (group, .wakeHead .leave)
  else if value < 0 then ({ group with crashed := true }, .idle)
  else (group, .idle)

def dispatchGroupWait (group : Group) (timeout : UInt64) : Point :=
  if group.dgValue = 0 then .idle
  else if timeout = dispatchTimeNow then .idle
  else .waitSlow timeout

def groupNotify (group : Group) (dsn : Node) : Group × Point :=
  let prev := group.dgNotifyTail
  let group := { group with
    doNext := Function.update group.doNext dsn none
    dgNotifyTail := some dsn
    registered := group.registered ++ [dsn]
    listed := group.listed ++ [dsn] }
  match prev with
  | some prev => ({ group with behind := Function.update group.behind prev (some dsn) }, .notifyLink prev dsn)
  | none => (group, .notifyRetain dsn)

-- The release that _dispatch_group_leave asks for comes last.
def wakeReturn : After → Point
  | .leave => .wakeRelease
  | .waitReturn | .notify => .idle
  | .waitSleep => .wait

def afterPosts (snapshot : Option Snapshot) (after : After) : Point :=
  match snapshot with
  | some snapshot => .wakeSubmit snapshot after
  | none => wakeReturn after

def wakeHead (group : Group) (after : After) : Group × Point :=
  match group.dgNotifyHead with
  | some head => ({ group with dgNotifyHead := none }, .wakeTail head after)
  | none => (group, .wakeWaiters none after)

-- The tail is not null once the head was not.
def wakeTail (group : Group) (head : Node) (after : After) : Group × Point :=
  ({ group with dgNotifyTail := none, listed := [] },
    .wakeWaiters (group.dgNotifyTail.map fun tail => ⟨head, tail, group.listed⟩) after)

def wakeWaiters (group : Group) (snapshot : Option Snapshot) (after : After) : Group × Point :=
  let rval := group.dgWaiters
  let group := { group with dgWaiters := 0 }
  if rval = 0 then (group, afterPosts snapshot after) else (group, .wakePost rval snapshot after)

def wakePost (group : Group) (rval : Nat) (snapshot : Option Snapshot) (after : After) : Group × Point :=
  let group := { group with dgSem := group.dgSem + 1 }
  if rval - 1 = 0 then (group, afterPosts snapshot after) else (group, .wakePost (rval - 1) snapshot after)

def submit (group : Group) (node : Node) : Group := { group with submitted := group.submitted ++ [node] }

-- os_mpsc_pop_snapshot_head waits for the link of every node but the tail.
def wakeSubmit (group : Group) (snapshot : Snapshot) (after : After) : Option (Group × Point) :=
  if snapshot.head = snapshot.tail then some (submit group snapshot.head, .wakeReleaseList after)
  else
    (group.doNext snapshot.head).map fun next =>
      (submit group snapshot.head, .wakeSubmit ⟨next, snapshot.tail, snapshot.nodes.tail⟩ after)

def waitSwitch (timeout : UInt64) : Point :=
  if timeout = dispatchTimeNow then .undo
  else if timeout = dispatchTimeForever then .wait
  else .timedwait

def semWait (group : Group) : Option (Group × Point) :=
  if group.dgSem = 0 then none else some ({ group with dgSem := group.dgSem - 1 }, .idle)

def compareExchange (group : Group) (origWaiters : Nat) : Group × Point :=
  if origWaiters ≠ 0 then
    if group.dgWaiters = origWaiters then ({ group with dgWaiters := origWaiters - 1 }, .idle)
    else (group, .undoing group.dgWaiters)
  else (group, .wait)

def Group.retain (group : Group) : Group := { group with doRefCnt := group.doRefCnt + 1 }

def Group.release (group : Group) : Group := { group with doRefCnt := group.doRefCnt - 1 }

def resume (group : Group) : Point → Option (Group × Point)
  | .idle => none
  | .enterRetain => some (group.retain, .idle)
  | .wakeHead after => some (wakeHead group after)
  | .wakeTail head after => some (wakeTail group head after)
  | .wakeWaiters snapshot after => some (wakeWaiters group snapshot after)
  | .wakePost rval snapshot after => some (wakePost group rval snapshot after)
  | .wakeSubmit snapshot after => wakeSubmit group snapshot after
  | .wakeReleaseList after => some (group.release, wakeReturn after)
  | .wakeRelease => some (group.release, .idle)
  | .waitSlow timeout => some (group, if group.dgValue = 0 then .wakeHead .waitReturn else .waitCount timeout)
  | .waitCount timeout => some ({ group with dgWaiters := (group.dgWaiters + 1) % countLimit }, .waitCheck timeout)
  | .waitCheck timeout => some (group, if group.dgValue = 0 then .wakeHead .waitSleep else waitSwitch timeout)
  | .timedwait => semWait group
  | .undo => some (group, .undoing group.dgWaiters)
  | .undoing origWaiters => some (compareExchange group origWaiters)
  | .wait => semWait group
  | .notifyLink prev dsn => some ({ group with doNext := Function.update group.doNext prev (some dsn) }, .idle)
  | .notifyRetain dsn => some (group.retain, .notifyPublish dsn)
  | .notifyPublish dsn => some ({ group with dgNotifyHead := some dsn }, .notifyCheck)
  | .notifyCheck => some (group, if group.dgValue = 0 then .wakeHead .notify else .idle)

def turn : Action → Group → Point → Option (Group × Point)
  | .enter, group, .idle => some (dispatchGroupEnter group)
  | .leave, group, .idle => some (dispatchGroupLeave group)
  | .wait timeout, group, .idle => some (group, dispatchGroupWait group timeout)
  | .notify dsn, group, .idle => if dsn ∈ group.registered then none else some (groupNotify group dsn)
  | .resume, group, point => resume group point
  | .retry, group, .timedwait => some (group, .timedwait)
  | .retry, group, .undoing origWaiters =>
      if origWaiters ≠ 0 then some (group, .undoing group.dgWaiters) else none
  | .retry, group, .wait => some (group, .wait)
  | .expire, group, .timedwait => some (group, .undo)
  | _, _, _ => none

def act (action : Action) (group : Group) (point : Point) : Option (Group × Point) :=
  if group.crashed then none else turn action group point

def After.sleeps : After → Nat
  | .waitSleep => 1
  | .leave | .waitReturn | .notify => 0

-- The threads that are counted in dg_waiters or hold a wakeup of the kernel.
def Point.sleeping : Point → Nat
  | .wakeHead after | .wakeTail _ after | .wakeWaiters _ after | .wakePost _ _ after | .wakeSubmit _ after
  | .wakeReleaseList after => after.sleeps
  | .waitCheck _ | .timedwait | .undo | .undoing _ | .wait => 1
  | .idle | .enterRetain | .wakeRelease | .waitSlow _ | .waitCount _ | .notifyLink _ _ | .notifyRetain _
  | .notifyPublish _ | .notifyCheck => 0

def Point.posts : Point → Nat
  | .wakePost rval _ _ => rval
  | _ => 0

-- The threads that will yet exchange dg_waiters if the value is zero.
def Point.waking : Point → Nat
  | .waitCheck _ | .wakeHead _ | .wakeTail _ _ | .wakeWaiters _ _ => 1
  | _ => 0

structure Waiting (group : Group) (threads : List Point) : Prop where
  value : 0 ≤ group.dgValue
  sleepers : weigh Point.sleeping threads = group.dgWaiters + group.dgSem + weigh Point.posts threads
  woken : group.dgValue = 0 → group.dgWaiters ≠ 0 → 0 < weigh Point.waking threads
  posting : ∀ rval snapshot after, .wakePost rval snapshot after ∈ threads → 0 < rval

variable (group next : Group) (threads : List Point) (index : Nat) (point moved : Point)

structure WaitingMove : Prop where
  value : 0 ≤ next.dgValue
  balance : next.dgWaiters + next.dgSem + moved.posts + point.sleeping =
    group.dgWaiters + group.dgSem + point.posts + moved.sleeping
  woken : next.dgValue = 0 → next.dgWaiters ≠ 0 →
    moved.waking = 1 ∨ group.dgValue = 0 ∧ group.dgWaiters ≠ 0 ∧ point.waking ≤ moved.waking
  posting : ∀ rval snapshot after, moved = .wakePost rval snapshot after → 0 < rval

theorem waiting_move (holds : Waiting group threads) (found : threads[index]? = some point)
    (move : WaitingMove group next point moved) : Waiting next (threads.set index moved) := by
  have sleeps := weigh_set Point.sleeping threads index point moved found
  have posts := weigh_set Point.posts threads index point moved found
  have wakes := weigh_set Point.waking threads index point moved found
  have others := weigh_erase Point.waking threads index point found
  have sleepers := holds.sleepers
  have balance := move.balance
  refine ⟨move.value, by omega, fun zero some => ?_, fun rval snapshot after member => ?_⟩
  · rcases move.woken zero some with waking | ⟨zero, some, less⟩
    · omega
    · have woken := holds.woken zero some
      omega
  · rcases mem_set_cases threads index moved _ member with same | other
    · exact move.posting rval snapshot after same.symm
    · exact holds.posting rval snapshot after (List.mem_of_mem_eraseIdx other)

-- A move that leaves the value, the waiters and the kernel's count alone.
theorem same_waiting (value : 0 ≤ group.dgValue) (values : next.dgValue = group.dgValue)
    (waiters : next.dgWaiters = group.dgWaiters) (sem : next.dgSem = group.dgSem)
    (posts : moved.posts = point.posts) (sleeping : moved.sleeping = point.sleeping)
    (waking : point.waking ≤ moved.waking) (posting : ∀ rval snapshot after, moved ≠ .wakePost rval snapshot after) :
    WaitingMove group next point moved :=
  ⟨values ▸ value, by rw [waiters, sem, posts, sleeping], fun zero some =>
    Or.inr ⟨values ▸ zero, waiters ▸ some, waking⟩, fun rval snapshot after same =>
    (posting rval snapshot after same).elim⟩

theorem return_sleeping (after : After) :
    (wakeReturn after).sleeping = after.sleeps ∧ (wakeReturn after).posts = 0 := by
  cases after <;> exact ⟨rfl, rfl⟩

theorem after_sleeping (snapshot : Option Snapshot) (after : After) :
    (afterPosts snapshot after).sleeping = after.sleeps ∧ (afterPosts snapshot after).posts = 0 := by
  cases snapshot with
  | none => exact return_sleeping after
  | some snapshot => exact ⟨rfl, rfl⟩

theorem not_post (snapshot : Option Snapshot) (after : After) (rval : Nat) (other : Option Snapshot) (same : After) :
    afterPosts snapshot after ≠ .wakePost rval other same := by
  cases snapshot with
  | none => cases after <;> exact fun impossible => Point.noConfusion impossible
  | some snapshot => exact fun impossible => Point.noConfusion impossible

theorem enter_waiting (value : 0 ≤ group.dgValue) (running : (dispatchGroupEnter group).1.crashed = false) :
    WaitingMove group (dispatchGroupEnter group).1 .idle (dispatchGroupEnter group).2 := by
  unfold dispatchGroupEnter at running ⊢
  by_cases full : group.dgValue < 0 ∨ longMax ≤ group.dgValue
  · simp only [if_pos full] at running
    cases running
  · have positive : 0 < group.dgValue + 1 := by omega
    by_cases first : group.dgValue = 0
    · simp only [if_neg full, if_pos first]
      exact ⟨positive.le, rfl, fun zero => (positive.ne' zero).elim, fun _ _ _ => nofun⟩
    · simp only [if_neg full, if_neg first]
      exact ⟨positive.le, rfl, fun zero => (positive.ne' zero).elim, fun _ _ _ => nofun⟩

theorem leave_waiting (running : (dispatchGroupLeave group).1.crashed = false) :
    WaitingMove group (dispatchGroupLeave group).1 .idle (dispatchGroupLeave group).2 := by
  unfold dispatchGroupLeave at running ⊢
  by_cases last : group.dgValue - 1 = 0
  · simp only [if_pos last]
    exact ⟨last.ge, rfl, fun _ _ => Or.inl rfl, fun _ _ _ => nofun⟩
  · by_cases unbalanced : group.dgValue - 1 < 0
    · simp only [if_neg last, if_pos unbalanced] at running
      cases running
    · simp only [if_neg last, if_neg unbalanced]
      exact ⟨Int.not_lt.mp unbalanced, rfl, fun zero => (last zero).elim, fun _ _ _ => nofun⟩

theorem notify_waiting (value : 0 ≤ group.dgValue) (dsn : Node) :
    WaitingMove group (groupNotify group dsn).1 .idle (groupNotify group dsn).2 := by
  unfold groupNotify
  cases group.dgNotifyTail with
  | none => exact same_waiting _ _ _ _ value rfl rfl rfl rfl rfl (Nat.le_refl _) fun _ _ _ => nofun
  | some prev => exact same_waiting _ _ _ _ value rfl rfl rfl rfl rfl (Nat.le_refl _) fun _ _ _ => nofun

theorem sem_wait_waiting (value : 0 ≤ group.dgValue) (posts : point.posts = 0) (sleeping : point.sleeping = 1)
    (waking : point.waking = 0) (waited : semWait group = some (next, moved)) : WaitingMove group next point moved := by
  obtain ⟨full, taken⟩ := Option.ite_none_left_eq_some.mp waited
  cases taken
  refine ⟨value, ?_, fun zero some => Or.inr ⟨zero, some, by rw [waking]; exact Nat.zero_le _⟩, fun _ _ _ => nofun⟩
  change group.dgWaiters + (group.dgSem - 1) + 0 + point.sleeping = group.dgWaiters + group.dgSem + point.posts + 0
  omega

theorem exchange_waiting (value : 0 ≤ group.dgValue) (origWaiters : Nat) :
    WaitingMove group (compareExchange group origWaiters).1 (.undoing origWaiters)
      (compareExchange group origWaiters).2 := by
  unfold compareExchange
  by_cases some : origWaiters ≠ 0
  · by_cases same : group.dgWaiters = origWaiters
    · rw [if_pos some, if_pos same]
      refine ⟨value, ?_, fun zero left => Or.inr ⟨zero, same ▸ some, Nat.zero_le _⟩, fun _ _ _ => nofun⟩
      change origWaiters - 1 + group.dgSem + 0 + 1 = group.dgWaiters + group.dgSem + 0 + 0
      omega
    · rw [if_pos some, if_neg same]
      exact same_waiting _ _ _ _ value rfl rfl rfl rfl rfl (Nat.le_refl _) fun _ _ _ => nofun
  · rw [if_neg some]
    exact same_waiting _ _ _ _ value rfl rfl rfl rfl rfl (Nat.le_refl _) fun _ _ _ => nofun

theorem wake_waiters_waiting (value : 0 ≤ group.dgValue) (snapshot : Option Snapshot) (after : After) :
    WaitingMove group (wakeWaiters group snapshot after).1 (.wakeWaiters snapshot after)
      (wakeWaiters group snapshot after).2 := by
  unfold wakeWaiters
  by_cases nobody : group.dgWaiters = 0
  · obtain ⟨sleeping, posts⟩ := after_sleeping snapshot after
    simp only [if_pos nobody]
    refine ⟨value, ?_, fun _ some => (some rfl).elim, fun rval other same equal => (not_post _ _ _ _ _ equal).elim⟩
    rw [sleeping, posts]
    change 0 + group.dgSem + 0 + after.sleeps = group.dgWaiters + group.dgSem + 0 + after.sleeps
    omega
  · simp only [if_neg nobody]
    refine ⟨value, ?_, fun _ some => (some rfl).elim, fun rval other same equal => ?_⟩
    · change 0 + group.dgSem + group.dgWaiters + after.sleeps = group.dgWaiters + group.dgSem + 0 + after.sleeps
      omega
    · cases equal
      omega

theorem wake_post_waiting (value : 0 ≤ group.dgValue) (rval : Nat) (positive : 0 < rval) (snapshot : Option Snapshot)
    (after : After) : WaitingMove group (wakePost group rval snapshot after).1 (.wakePost rval snapshot after)
      (wakePost group rval snapshot after).2 := by
  unfold wakePost
  by_cases last : rval - 1 = 0
  · obtain ⟨sleeping, posts⟩ := after_sleeping snapshot after
    simp only [if_pos last]
    refine ⟨value, ?_, fun zero some => Or.inr ⟨zero, some, Nat.zero_le _⟩,
      fun rval other same equal => (not_post _ _ _ _ _ equal).elim⟩
    rw [sleeping, posts]
    change group.dgWaiters + (group.dgSem + 1) + 0 + after.sleeps = group.dgWaiters + group.dgSem + rval + after.sleeps
    omega
  · simp only [if_neg last]
    refine ⟨value, ?_, fun zero some => Or.inr ⟨zero, some, Nat.zero_le _⟩, fun left other same equal => ?_⟩
    · change group.dgWaiters + (group.dgSem + 1) + (rval - 1) + after.sleeps =
        group.dgWaiters + group.dgSem + rval + after.sleeps
      omega
    · cases equal
      omega

theorem switch_sleeping (timeout : UInt64) : (waitSwitch timeout).sleeping = 1 ∧ (waitSwitch timeout).posts = 0 ∧
    ∀ rval snapshot after, waitSwitch timeout ≠ .wakePost rval snapshot after := by
  unfold waitSwitch
  by_cases now : timeout = dispatchTimeNow
  · rw [if_pos now]
    exact ⟨rfl, rfl, fun _ _ _ => nofun⟩
  · by_cases forever : timeout = dispatchTimeForever
    · rw [if_neg now, if_pos forever]
      exact ⟨rfl, rfl, fun _ _ _ => nofun⟩
    · rw [if_neg now, if_neg forever]
      exact ⟨rfl, rfl, fun _ _ _ => nofun⟩

theorem sleeping_small (point : Point) : point.sleeping ≤ 1 := by
  have after_small (after : After) : after.sleeps ≤ 1 := by
    cases after <;> decide
  cases point with
  | wakeHead after | wakeTail _ after | wakeWaiters _ after | wakePost _ _ after | wakeSubmit _ after
  | wakeReleaseList after => exact after_small after
  | waitCheck _ | timedwait | undo | undoing _ | wait => exact Nat.le_refl 1
  | idle | enterRetain | wakeRelease | waitSlow _ | waitCount _ | notifyLink _ _ | notifyRetain _ | notifyPublish _
  | notifyCheck => exact Nat.zero_le 1

theorem counted_waiters (holds : Waiting group threads) (few : threads.length ≤ intMax) :
    (group.dgWaiters + 1) % countLimit = group.dgWaiters + 1 := by
  have most := weigh_le_length Point.sleeping threads sleeping_small
  have sleepers := holds.sleepers
  unfold intMax at few
  unfold countLimit
  omega

theorem resume_waiting (holds : Waiting group threads) (few : threads.length ≤ intMax) (member : point ∈ threads)
    (resumed : resume group point = some (next, moved)) : WaitingMove group next point moved := by
  have value := holds.value
  cases point with
  | idle => cases resumed
  | enterRetain | wakeRelease | notifyLink _ _ | notifyRetain _ | notifyPublish _ =>
      cases resumed
      exact same_waiting _ _ _ _ value rfl rfl rfl rfl rfl (Nat.le_refl _) fun _ _ _ => nofun
  | wakeHead after =>
      cases set : group.dgNotifyHead with
      | none =>
          simp only [resume, wakeHead, set, Option.some.injEq] at resumed
          cases resumed
          exact same_waiting _ _ _ _ value rfl rfl rfl rfl rfl (Nat.le_refl _) fun _ _ _ => nofun
      | some head =>
          simp only [resume, wakeHead, set, Option.some.injEq] at resumed
          cases resumed
          exact same_waiting _ _ _ _ value rfl rfl rfl rfl rfl (Nat.le_refl _) fun _ _ _ => nofun
  | wakeTail head after =>
      cases resumed
      exact same_waiting _ _ _ _ value rfl rfl rfl rfl rfl (Nat.le_refl _) fun _ _ _ => nofun
  | wakeWaiters snapshot after =>
      have move := wake_waiters_waiting group value snapshot after
      rwa [Option.some.inj resumed] at move
  | wakePost rval snapshot after =>
      have move := wake_post_waiting group value rval (holds.posting rval snapshot after member) snapshot after
      rwa [Option.some.inj resumed] at move
  | wakeSubmit snapshot after =>
      by_cases last : snapshot.head = snapshot.tail
      · simp only [resume, wakeSubmit, if_pos last, Option.some.injEq] at resumed
        cases resumed
        exact same_waiting _ _ _ _ value rfl rfl rfl rfl rfl (Nat.le_refl _) fun _ _ _ => nofun
      · simp only [resume, wakeSubmit, if_neg last] at resumed
        obtain ⟨behind, -, rest⟩ := Option.map_eq_some_iff.mp resumed
        cases rest
        exact same_waiting _ _ _ _ value rfl rfl rfl rfl rfl (Nat.le_refl _) fun _ _ _ => nofun
  | wakeReleaseList after =>
      cases resumed
      obtain ⟨sleeping, posts⟩ := return_sleeping after
      exact same_waiting _ _ _ _ value rfl rfl rfl posts sleeping (Nat.zero_le _) fun rval snapshot same equal =>
        not_post none after rval snapshot same equal
  | waitSlow timeout =>
      cases resumed
      by_cases zero : group.dgValue = 0
      · simp only [if_pos zero]
        exact same_waiting _ _ _ _ value rfl rfl rfl rfl rfl (Nat.zero_le _) fun _ _ _ => nofun
      · simp only [if_neg zero]
        exact same_waiting _ _ _ _ value rfl rfl rfl rfl rfl (Nat.zero_le _) fun _ _ _ => nofun
  | waitCount timeout =>
      cases resumed
      refine ⟨value, ?_, fun _ _ => Or.inl rfl, fun _ _ _ => nofun⟩
      change (group.dgWaiters + 1) % countLimit + group.dgSem + 0 + 0 = group.dgWaiters + group.dgSem + 0 + 1
      rw [counted_waiters group threads holds few]
      omega
  | waitCheck timeout =>
      cases resumed
      by_cases zero : group.dgValue = 0
      · simp only [if_pos zero]
        exact same_waiting _ _ _ _ value rfl rfl rfl rfl rfl (Nat.le_refl _) fun _ _ _ => nofun
      · obtain ⟨sleeping, posts, post⟩ := switch_sleeping timeout
        simp only [if_neg zero]
        refine ⟨value, ?_, fun none => (zero none).elim,
          fun rval snapshot after same => (post rval snapshot after same).elim⟩
        rw [sleeping, posts]
        rfl
  | timedwait => exact sem_wait_waiting group next .timedwait moved value rfl rfl rfl resumed
  | wait => exact sem_wait_waiting group next .wait moved value rfl rfl rfl resumed
  | undo =>
      cases resumed
      exact same_waiting _ _ _ _ value rfl rfl rfl rfl rfl (Nat.le_refl _) fun _ _ _ => nofun
  | undoing origWaiters =>
      have move := exchange_waiting group value origWaiters
      rwa [Option.some.inj resumed] at move
  | notifyCheck =>
      cases resumed
      by_cases zero : group.dgValue = 0
      · simp only [if_pos zero]
        exact same_waiting _ _ _ _ value rfl rfl rfl rfl rfl (Nat.zero_le _) fun _ _ _ => nofun
      · simp only [if_neg zero]
        exact same_waiting _ _ _ _ value rfl rfl rfl rfl rfl (Nat.zero_le _) fun _ _ _ => nofun

theorem turn_waiting (action : Action) (holds : Waiting group threads) (few : threads.length ≤ intMax)
    (member : point ∈ threads) (running : next.crashed = false) (taken : turn action group point = some (next, moved)) :
    WaitingMove group next point moved := by
  have value := holds.value
  cases action with
  | resume => exact resume_waiting group next threads point moved holds few member taken
  | enter =>
      cases point with
      | idle =>
          have move := enter_waiting group value
          rw [Option.some.inj taken] at move
          exact move running
      | _ => cases taken
  | leave =>
      cases point with
      | idle =>
          have move := leave_waiting group
          rw [Option.some.inj taken] at move
          exact move running
      | _ => cases taken
  | wait timeout =>
      cases point with
      | idle =>
          cases taken
          unfold dispatchGroupWait
          by_cases zero : group.dgValue = 0
          · rw [if_pos zero]
            exact same_waiting _ _ _ _ value rfl rfl rfl rfl rfl (Nat.le_refl _) fun _ _ _ => nofun
          · by_cases now : timeout = dispatchTimeNow
            · rw [if_neg zero, if_pos now]
              exact same_waiting _ _ _ _ value rfl rfl rfl rfl rfl (Nat.le_refl _) fun _ _ _ => nofun
            · rw [if_neg zero, if_neg now]
              exact same_waiting _ _ _ _ value rfl rfl rfl rfl rfl (Nat.le_refl _) fun _ _ _ => nofun
      | _ => cases taken
  | notify dsn =>
      cases point with
      | idle =>
          obtain ⟨-, pushed⟩ := Option.ite_none_left_eq_some.mp taken
          have move := notify_waiting group value dsn
          rwa [Option.some.inj pushed] at move
      | _ => cases taken
  | retry =>
      cases point with
      | timedwait | wait =>
          cases taken
          exact same_waiting _ _ _ _ value rfl rfl rfl rfl rfl (Nat.le_refl _) fun _ _ _ => nofun
      | undoing origWaiters =>
          obtain ⟨-, loaded⟩ := Option.ite_none_right_eq_some.mp taken
          cases loaded
          exact same_waiting _ _ _ _ value rfl rfl rfl rfl rfl (Nat.le_refl _) fun _ _ _ => nofun
      | _ => cases taken
  | expire =>
      cases point with
      | timedwait =>
          cases taken
          exact same_waiting _ _ _ _ value rfl rfl rfl rfl rfl (Nat.le_refl _) fun _ _ _ => nofun
      | _ => cases taken

end CultivationMotain.Dispatch.Groups

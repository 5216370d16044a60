import CultivationMotain.Dispatch.GroupNotify

set_option autoImplicit false

namespace CultivationMotain.Dispatch.Groups

open Threads Weights

-- The threads that will yet take the list if the value is zero.
def Point.taking : Point → Nat
  | .notifyCheck | .wakeHead _ => 1
  | _ => 0

def Point.retains : Point → Nat
  | .enterRetain | .notifyRetain _ => 1
  | _ => 0

def After.releases : After → Nat
  | .leave => 1
  | .waitReturn | .waitSleep | .notify => 0

def Point.releases : Point → Nat
  | .wakeHead after | .wakeTail _ after => after.releases
  | .wakeWaiters snapshot after | .wakePost _ snapshot after => after.releases + snapshot.elim 0 fun _ => 1
  | .wakeSubmit _ after | .wakeReleaseList after => after.releases + 1
  | .wakeRelease => 1
  | _ => 0

-- The references the group is due: one while it is entered, one while blocks
-- wait on its list.
def Group.due (group : Group) : Int := (if group.dgValue = 0 then 0 else 1) + if group.listed = [] then 0 else 1

structure Kept (group : Group) (threads : List Point) : Prop where
  waiting : Waiting group threads
  listing : Listing group.toNotifyList threads
  notified : group.dgValue = 0 → group.dgNotifyHead ≠ none → 0 < weigh Point.taking threads
  references : group.doRefCnt + weigh Point.retains threads = group.due + weigh Point.releases threads

variable (group next : Group) (threads : List Point) (index : Nat) (point moved : Point)

structure ListMove : Prop where
  listing : Listing next.toNotifyList (threads.set index moved)
  notified : next.dgValue = 0 → next.dgNotifyHead ≠ none →
    moved.taking = 1 ∨ group.dgValue = 0 ∧ group.dgNotifyHead ≠ none ∧ point.taking ≤ moved.taking
  references : next.doRefCnt + moved.retains + point.releases + group.due =
    group.doRefCnt + point.retains + moved.releases + next.due

theorem kept_move (holds : Kept group threads) (found : threads[index]? = some point)
    (waiting : WaitingMove group next point moved) (list : ListMove group next threads index point moved) :
    Kept next (threads.set index moved) := by
  have takes := weigh_erase Point.taking threads index point found
  have taken := weigh_set Point.taking threads index point moved found
  have retains := weigh_set Point.retains threads index point moved found
  have releases := weigh_set Point.releases threads index point moved found
  have before := holds.references
  have references := list.references
  refine ⟨waiting_move group next threads index point moved holds.waiting found waiting, list.listing,
    fun zero set => ?_, by omega⟩
  rcases list.notified zero set with takes | ⟨zero, set, less⟩
  · omega
  · have old := holds.notified zero set
    omega

-- A move of which the list knows nothing.
theorem same_list (holds : Listing group.toNotifyList threads) (found : threads[index]? = some point)
    (list : next.toNotifyList = group.toNotifyList) (value : next.dgValue = group.dgValue)
    (snapshot : moved.snapshot? = point.snapshot?) (front : moved.front? = point.front?)
    (link : moved.link? = point.link?)
    (taking : group.dgValue = 0 → group.dgNotifyHead ≠ none → point.taking ≤ moved.taking)
    (references : next.doRefCnt + moved.retains + point.releases =
      group.doRefCnt + point.retains + moved.releases) : ListMove group next threads index point moved := by
  have due : next.due = group.due := by
    rw [Group.due, Group.due, list, value]
  refine ⟨?_, fun zero set => ?_, by omega⟩
  · rw [list]
    exact same_listing group.toNotifyList threads index point moved holds found snapshot front link
  · rw [value] at zero
    rw [list] at set
    exact Or.inr ⟨zero, set, taking zero set⟩

theorem enter_list (holds : Listing group.toNotifyList threads) (found : threads[index]? = some .idle)
    (value : 0 ≤ group.dgValue) (running : (dispatchGroupEnter group).1.crashed = false) :
    ListMove group (dispatchGroupEnter group).1 threads index .idle (dispatchGroupEnter group).2 := by
  unfold dispatchGroupEnter at running ⊢
  by_cases full : group.dgValue < 0 ∨ longMax ≤ group.dgValue
  · simp only [if_pos full] at running
    cases running
  · have positive : group.dgValue + 1 ≠ 0 := by omega
    by_cases first : group.dgValue = 0
    · simp only [if_neg full, if_pos first]
      refine ⟨same_listing _ threads index .idle .enterRetain holds found rfl rfl rfl,
        fun zero => (positive zero).elim, ?_⟩
      simp only [Group.due, if_pos first, if_neg positive]
      change group.doRefCnt + 1 + 0 + _ = group.doRefCnt + 0 + 0 + _
      omega
    · simp only [if_neg full, if_neg first]
      refine ⟨same_listing _ threads index .idle .idle holds found rfl rfl rfl, fun zero => (positive zero).elim, ?_⟩
      simp only [Group.due, if_neg first, if_neg positive]

theorem leave_list (holds : Listing group.toNotifyList threads) (found : threads[index]? = some .idle)
    (running : (dispatchGroupLeave group).1.crashed = false) :
    ListMove group (dispatchGroupLeave group).1 threads index .idle (dispatchGroupLeave group).2 := by
  unfold dispatchGroupLeave at running ⊢
  by_cases last : group.dgValue - 1 = 0
  · have entered : group.dgValue ≠ 0 := by omega
    simp only [if_pos last]
    refine ⟨same_listing _ threads index .idle (.wakeHead .leave) holds found rfl rfl rfl, fun _ _ => Or.inl rfl, ?_⟩
    simp only [Group.due, if_pos last, if_neg entered]
    change group.doRefCnt + 0 + 0 + _ = group.doRefCnt + 0 + 1 + _
    omega
  · by_cases unbalanced : group.dgValue - 1 < 0
    · simp only [if_neg last, if_pos unbalanced] at running
      cases running
    · have entered : group.dgValue ≠ 0 := by omega
      simp only [if_neg last, if_neg unbalanced]
      refine ⟨same_listing _ threads index .idle .idle holds found rfl rfl rfl, fun zero => (last zero).elim, ?_⟩
      simp only [Group.due, if_neg last, if_neg entered]

theorem notify_list (holds : Listing group.toNotifyList threads) (found : threads[index]? = some .idle) (dsn : Node)
    (new : dsn ∉ group.registered) :
    ListMove group (groupNotify group dsn).1 threads index .idle (groupNotify group dsn).2 := by
  unfold groupNotify
  cases set : group.dgNotifyTail with
  | none =>
      have empty : group.listed = [] := List.getLast?_eq_none_iff.mp (holds.tail.symm.trans set)
      refine ⟨push_first_listing _ threads index dsn holds found new set, fun zero head =>
        Or.inr ⟨zero, head, Nat.le_refl 0⟩, ?_⟩
      simp only [Group.due, if_pos empty, if_neg (List.append_ne_nil_of_right_ne_nil _ (List.cons_ne_nil dsn []))]
      change group.doRefCnt + 1 + 0 + _ = group.doRefCnt + 0 + 0 + _
      omega
  | some prev =>
      have nonempty : group.listed ≠ [] := List.ne_nil_of_mem (List.mem_of_getLast? (holds.tail.symm.trans set))
      refine ⟨push_behind_listing _ threads index prev dsn holds found new set, fun zero head =>
        Or.inr ⟨zero, head, Nat.le_refl 0⟩, ?_⟩
      simp only [Group.due, if_neg nonempty,
        if_neg (List.append_ne_nil_of_right_ne_nil _ (List.cons_ne_nil dsn []))]
      rfl

theorem wake_head_list (holds : Listing group.toNotifyList threads) (after : After)
    (found : threads[index]? = some (.wakeHead after)) :
    ListMove group (wakeHead group after).1 threads index (.wakeHead after) (wakeHead group after).2 := by
  unfold wakeHead
  cases set : group.dgNotifyHead with
  | none =>
      exact same_list group group threads index _ _ holds found rfl rfl rfl rfl rfl (fun _ some => (some set).elim) rfl
  | some head =>
      exact ⟨take_head_listing _ threads index head after holds found set, fun _ some => (some rfl).elim, rfl⟩

theorem wake_tail_list (holds : Listing group.toNotifyList threads) (head : Node) (after : After)
    (found : threads[index]? = some (.wakeTail head after)) :
    ListMove group (wakeTail group head after).1 threads index (.wakeTail head after)
      (wakeTail group head after).2 := by
  obtain ⟨front, headless⟩ := (holds.stands _ (List.mem_of_getElem? found)).front head rfl
  have nonempty : group.listed ≠ [] := List.ne_nil_of_mem (List.mem_of_head? front)
  refine ⟨take_tail_listing _ threads index head after holds found, fun _ some => (some headless).elim, ?_⟩
  have last : ∃ tail, group.dgNotifyTail = some tail := by
    cases set : group.dgNotifyTail with
    | none => exact (nonempty (List.getLast?_eq_none_iff.mp (holds.tail.symm.trans set))).elim
    | some tail => exact ⟨tail, rfl⟩
  obtain ⟨tail, set⟩ := last
  simp only [wakeTail, Group.due, set, Option.map_some, if_neg nonempty, if_pos]
  change group.doRefCnt + 0 + after.releases + _ = group.doRefCnt + 0 + (after.releases + 1 : Nat) + _
  omega

structure SameViews (point moved : Point) : Prop where
  snapshot : moved.snapshot? = point.snapshot?
  front : moved.front? = point.front?
  link : moved.link? = point.link?
  retains : moved.retains = point.retains
  releases : moved.releases = point.releases

-- A move of which neither the list nor the references know anything.
theorem silent_list (holds : Listing group.toNotifyList threads) (found : threads[index]? = some point)
    (list : next.toNotifyList = group.toNotifyList) (value : next.dgValue = group.dgValue)
    (references : next.doRefCnt = group.doRefCnt) (taking : group.dgValue = 0 → point.taking ≤ moved.taking)
    (same : SameViews point moved) : ListMove group next threads index point moved :=
  same_list group next threads index point moved holds found list value same.snapshot same.front same.link
    (fun zero _ => taking zero) (by rw [references, same.retains, same.releases])

theorem return_views (after : After) : SameViews (.wakeWaiters none after) (wakeReturn after) := by
  cases after <;> exact ⟨rfl, rfl, rfl, rfl, rfl⟩

theorem after_views (snapshot : Option Snapshot) (after : After) :
    SameViews (.wakeWaiters snapshot after) (afterPosts snapshot after) := by
  cases snapshot with
  | none => exact return_views after
  | some snapshot => exact ⟨rfl, rfl, rfl, rfl, rfl⟩

theorem switch_views (timeout : UInt64) : SameViews (.waitCheck timeout) (waitSwitch timeout) := by
  unfold waitSwitch
  by_cases now : timeout = dispatchTimeNow
  · rw [if_pos now]
    exact ⟨rfl, rfl, rfl, rfl, rfl⟩
  · by_cases forever : timeout = dispatchTimeForever
    · rw [if_neg now, if_pos forever]
      exact ⟨rfl, rfl, rfl, rfl, rfl⟩
    · rw [if_neg now, if_neg forever]
      exact ⟨rfl, rfl, rfl, rfl, rfl⟩

theorem wake_waiters_list (holds : Listing group.toNotifyList threads) (snapshot : Option Snapshot) (after : After)
    (found : threads[index]? = some (.wakeWaiters snapshot after)) :
    ListMove group (wakeWaiters group snapshot after).1 threads index (.wakeWaiters snapshot after)
      (wakeWaiters group snapshot after).2 := by
  unfold wakeWaiters
  by_cases nobody : group.dgWaiters = 0
  · simp only [if_pos nobody]
    exact silent_list _ _ _ _ _ _ holds found rfl rfl rfl (fun _ => Nat.zero_le _) (after_views snapshot after)
  · simp only [if_neg nobody]
    exact silent_list _ _ _ _ _ _ holds found rfl rfl rfl (fun _ => Nat.zero_le _) ⟨rfl, rfl, rfl, rfl, rfl⟩

theorem wake_post_list (holds : Listing group.toNotifyList threads) (rval : Nat) (snapshot : Option Snapshot)
    (after : After) (found : threads[index]? = some (.wakePost rval snapshot after)) :
    ListMove group (wakePost group rval snapshot after).1 threads index (.wakePost rval snapshot after)
      (wakePost group rval snapshot after).2 := by
  unfold wakePost
  by_cases last : rval - 1 = 0
  · obtain ⟨taken, front, link, retains, releases⟩ := after_views snapshot after
    simp only [if_pos last]
    exact silent_list _ _ _ _ _ _ holds found rfl rfl rfl (fun _ => Nat.zero_le _)
      ⟨taken, front, link, retains, releases⟩
  · simp only [if_neg last]
    exact silent_list _ _ _ _ _ _ holds found rfl rfl rfl (fun _ => Nat.zero_le _) ⟨rfl, rfl, rfl, rfl, rfl⟩

theorem wake_submit_list (holds : Listing group.toNotifyList threads) (snapshot : Snapshot) (after : After)
    (found : threads[index]? = some (.wakeSubmit snapshot after))
    (taken : wakeSubmit group snapshot after = some (next, moved)) :
    ListMove group next threads index (.wakeSubmit snapshot after) moved := by
  have listing := wake_submit_listing threads index moved group next snapshot after holds found taken
  unfold wakeSubmit at taken
  by_cases last : snapshot.head = snapshot.tail
  · rw [if_pos last] at taken
    cases taken
    exact ⟨listing, fun zero set => Or.inr ⟨zero, set, Nat.le_refl 0⟩, rfl⟩
  · rw [if_neg last] at taken
    obtain ⟨n, -, result⟩ := Option.map_eq_some_iff.mp taken
    cases result
    exact ⟨listing, fun zero set => Or.inr ⟨zero, set, Nat.le_refl 0⟩, rfl⟩

theorem sem_wait_list (holds : Listing group.toNotifyList threads) (found : threads[index]? = some point)
    (taking : point.taking = 0) (views : SameViews point .idle) (waited : semWait group = some (next, moved)) :
    ListMove group next threads index point moved := by
  obtain ⟨-, taken⟩ := Option.ite_none_left_eq_some.mp waited
  cases taken
  exact silent_list _ _ _ _ _ _ holds found rfl rfl rfl (fun _ => taking.le) views

theorem exchange_list (holds : Listing group.toNotifyList threads) (origWaiters : Nat)
    (found : threads[index]? = some (.undoing origWaiters)) :
    ListMove group (compareExchange group origWaiters).1 threads index (.undoing origWaiters)
      (compareExchange group origWaiters).2 := by
  unfold compareExchange
  by_cases some : origWaiters ≠ 0
  · by_cases same : group.dgWaiters = origWaiters
    · rw [if_pos some, if_pos same]
      exact silent_list _ _ _ _ _ _ holds found rfl rfl rfl (fun _ => Nat.le_refl _) ⟨rfl, rfl, rfl, rfl, rfl⟩
    · rw [if_pos some, if_neg same]
      exact silent_list _ _ _ _ _ _ holds found rfl rfl rfl (fun _ => Nat.le_refl _) ⟨rfl, rfl, rfl, rfl, rfl⟩
  · rw [if_neg some]
    exact silent_list _ _ _ _ _ _ holds found rfl rfl rfl (fun _ => Nat.le_refl _) ⟨rfl, rfl, rfl, rfl, rfl⟩

theorem resume_list (holds : Listing group.toNotifyList threads) (found : threads[index]? = some point)
    (resumed : resume group point = some (next, moved)) : ListMove group next threads index point moved := by
  cases point with
  | idle => cases resumed
  | enterRetain =>
      cases resumed
      refine same_list _ _ _ _ _ _ holds found rfl rfl rfl rfl rfl (fun _ _ => Nat.le_refl _) ?_
      change group.doRefCnt + 1 + 0 + 0 = group.doRefCnt + 1 + 0
      omega
  | wakeHead after =>
      have move := wake_head_list group threads index holds after found
      rwa [Option.some.inj resumed] at move
  | wakeTail head after =>
      have move := wake_tail_list group threads index holds head after found
      rwa [Option.some.inj resumed] at move
  | wakeWaiters snapshot after =>
      have move := wake_waiters_list group threads index holds snapshot after found
      rwa [Option.some.inj resumed] at move
  | wakePost rval snapshot after =>
      have move := wake_post_list group threads index holds rval snapshot after found
      rwa [Option.some.inj resumed] at move
  | wakeSubmit snapshot after =>
      exact wake_submit_list group next threads index moved holds snapshot after found resumed
  | wakeReleaseList after =>
      cases resumed
      obtain ⟨taken, front, link, retains, releases⟩ := return_views after
      refine same_list _ _ _ _ _ _ holds found rfl rfl taken front link (fun _ _ => Nat.zero_le _) ?_
      rw [retains, releases]
      change group.doRefCnt - 1 + 0 + (after.releases + 1 : Nat) = group.doRefCnt + 0 + (after.releases + 0 : Nat)
      omega
  | wakeRelease =>
      cases resumed
      refine same_list _ _ _ _ _ _ holds found rfl rfl rfl rfl rfl (fun _ _ => Nat.le_refl _) ?_
      change group.doRefCnt - 1 + 0 + 1 = group.doRefCnt + 0 + 0
      omega
  | waitSlow timeout =>
      cases resumed
      by_cases zero : group.dgValue = 0
      · simp only [if_pos zero]
        exact silent_list _ _ _ _ _ _ holds found rfl rfl rfl (fun _ => Nat.zero_le _) ⟨rfl, rfl, rfl, rfl, rfl⟩
      · simp only [if_neg zero]
        exact silent_list _ _ _ _ _ _ holds found rfl rfl rfl (fun _ => Nat.zero_le _) ⟨rfl, rfl, rfl, rfl, rfl⟩
  | waitCount timeout | undo =>
      cases resumed
      exact silent_list _ _ _ _ _ _ holds found rfl rfl rfl (fun _ => Nat.le_refl _) ⟨rfl, rfl, rfl, rfl, rfl⟩
  | waitCheck timeout =>
      cases resumed
      by_cases zero : group.dgValue = 0
      · simp only [if_pos zero]
        exact silent_list _ _ _ _ _ _ holds found rfl rfl rfl (fun _ => Nat.zero_le _) ⟨rfl, rfl, rfl, rfl, rfl⟩
      · simp only [if_neg zero]
        exact silent_list _ _ _ _ _ _ holds found rfl rfl rfl (fun none => (zero none).elim) (switch_views timeout)
  | timedwait =>
      exact sem_wait_list group next threads index .timedwait moved holds found rfl ⟨rfl, rfl, rfl, rfl, rfl⟩ resumed
  | wait => exact sem_wait_list group next threads index .wait moved holds found rfl ⟨rfl, rfl, rfl, rfl, rfl⟩ resumed
  | undoing origWaiters =>
      have move := exchange_list group threads index holds origWaiters found
      rwa [Option.some.inj resumed] at move
  | notifyLink prev dsn =>
      cases resumed
      exact ⟨link_listing _ threads index prev dsn holds found, fun zero set => Or.inr ⟨zero, set, Nat.le_refl 0⟩, rfl⟩
  | notifyRetain dsn =>
      cases resumed
      refine same_list _ _ _ _ _ _ holds found rfl rfl rfl rfl rfl (fun _ _ => Nat.le_refl _) ?_
      change group.doRefCnt + 1 + 0 + 0 = group.doRefCnt + 1 + 0
      omega
  | notifyPublish dsn =>
      cases resumed
      exact ⟨publish_listing _ threads index dsn holds found, fun _ _ => Or.inl rfl, rfl⟩
  | notifyCheck =>
      cases resumed
      by_cases zero : group.dgValue = 0
      · simp only [if_pos zero]
        exact silent_list _ _ _ _ _ _ holds found rfl rfl rfl (fun _ => Nat.le_refl _) ⟨rfl, rfl, rfl, rfl, rfl⟩
      · simp only [if_neg zero]
        exact silent_list _ _ _ _ _ _ holds found rfl rfl rfl (fun none => (zero none).elim) ⟨rfl, rfl, rfl, rfl, rfl⟩

theorem turn_list (action : Action) (holds : Kept group threads) (found : threads[index]? = some point)
    (running : next.crashed = false) (taken : turn action group point = some (next, moved)) :
    ListMove group next threads index point moved := by
  have listing := holds.listing
  cases action with
  | resume => exact resume_list group next threads index point moved listing found taken
  | enter =>
      cases point with
      | idle =>
          have move := enter_list group threads index listing found holds.waiting.value
          rw [Option.some.inj taken] at move
          exact move running
      | _ => cases taken
  | leave =>
      cases point with
      | idle =>
          have move := leave_list group threads index listing found
          rw [Option.some.inj taken] at move
          exact move running
      | _ => cases taken
  | wait timeout =>
      cases point with
      | idle =>
          cases taken
          unfold dispatchGroupWait
          by_cases zero : group.dgValue = 0
          · rw [if_pos zero]
            exact silent_list _ _ _ _ _ _ listing found rfl rfl rfl (fun _ => Nat.le_refl _) ⟨rfl, rfl, rfl, rfl, rfl⟩
          · by_cases now : timeout = dispatchTimeNow
            · rw [if_neg zero, if_pos now]
              exact silent_list _ _ _ _ _ _ listing found rfl rfl rfl (fun _ => Nat.le_refl _) ⟨rfl, rfl, rfl, rfl, rfl⟩
            · rw [if_neg zero, if_neg now]
              exact silent_list _ _ _ _ _ _ listing found rfl rfl rfl (fun _ => Nat.le_refl _) ⟨rfl, rfl, rfl, rfl, rfl⟩
      | _ => cases taken
  | notify dsn =>
      cases point with
      | idle =>
          obtain ⟨new, pushed⟩ := Option.ite_none_left_eq_some.mp taken
          have move := notify_list group threads index listing found dsn new
          rwa [Option.some.inj pushed] at move
      | _ => cases taken
  | retry =>
      cases point with
      | timedwait | wait =>
          cases taken
          exact silent_list _ _ _ _ _ _ listing found rfl rfl rfl (fun _ => Nat.le_refl _) ⟨rfl, rfl, rfl, rfl, rfl⟩
      | undoing origWaiters =>
          obtain ⟨-, loaded⟩ := Option.ite_none_right_eq_some.mp taken
          cases loaded
          exact silent_list _ _ _ _ _ _ listing found rfl rfl rfl (fun _ => Nat.le_refl _) ⟨rfl, rfl, rfl, rfl, rfl⟩
      | _ => cases taken
  | expire =>
      cases point with
      | timedwait =>
          cases taken
          exact silent_list _ _ _ _ _ _ listing found rfl rfl rfl (fun _ => Nat.le_refl _) ⟨rfl, rfl, rfl, rfl, rfl⟩
      | _ => cases taken

theorem act_kept (action : Action) (holds : Kept group threads) (few : threads.length ≤ intMax)
    (found : threads[index]? = some point) (running : next.crashed = false)
      (acted : act action group point = some (next, moved)) :
    Kept next (threads.set index moved) := by
  obtain ⟨-, taken⟩ := Option.ite_none_left_eq_some.mp acted
  exact kept_move group next threads index point moved holds found
    (turn_waiting group next threads point moved action holds.waiting few (List.mem_of_getElem? found) running taken)
    (turn_list group next threads index point moved action holds found running taken)

-- entered: the group comes from _dispatch_group_create_and_enter.
def created (entered : Bool) (count : Nat) : System Group Point :=
  ⟨if entered then groupCreateAndEnter else dispatchGroupCreate, List.replicate count .idle⟩

theorem idle_weigh (weight : Point → Nat) (none : weight .idle = 0) (count : Nat) :
    weigh weight (List.replicate count Point.idle) = 0 := by rw [weigh_replicate, none, Nat.mul_zero]

theorem created_listing (value : Int) (count : Nat) :
    Listing (createWithCount value).toNotifyList (List.replicate count .idle) := by
  refine ⟨List.nodup_nil, fun node => ?_, rfl, List.IsChain.nil, fun _ => nofun, fun _ => nofun, fun _ => Or.inl rfl,
    fun node => ?_, fun _ => nofun, fun _ _ => ⟨rfl, rfl⟩, ?_, fun point member => ?_⟩
  · rw [idle_weigh (Point.holds node) rfl]
    rfl
  · rw [idle_weigh (Point.linksFrom node) rfl]
    exact ⟨Nat.zero_le 1, iff_of_false (Nat.lt_irrefl 0) fun gap => gap.1 rfl⟩
  · rw [idle_weigh Point.fronts rfl]
    exact ⟨Nat.zero_le 1, iff_of_false (Nat.lt_irrefl 0) fun both => both.2 rfl⟩
  · rw [List.eq_of_mem_replicate member]
    exact ⟨fun _ => nofun, fun _ => nofun, fun _ _ => nofun⟩

theorem created_kept (entered : Bool) (count : Nat) :
    Kept (created entered count).shared (created entered count).threads := by
  have start (value : Int) (nonnegative : 0 ≤ value) : Kept (createWithCount value) (List.replicate count .idle) := by
    refine ⟨⟨nonnegative, ?_, fun _ some => (some rfl).elim, fun _ _ _ member => ?_⟩, created_listing value count,
      fun _ set => (set rfl).elim, ?_⟩
    · rw [idle_weigh Point.sleeping rfl, idle_weigh Point.posts rfl]
      rfl
    · cases List.eq_of_mem_replicate member
    · rw [idle_weigh Point.retains rfl, idle_weigh Point.releases rfl]
      simp only [Group.due, createWithCount, ne_eq, ite_not, if_pos, Int.add_zero]
  cases entered with
  | true => exact start 1 (by decide)
  | false => exact start 0 (by decide)

theorem run_kept (entered : Bool) (count : Nat) (few : count ≤ intMax) (final : System Group Point)
    (events : List (Nat × Action)) (ran : Runs.run (step act) (created entered count) events = some final)
    (running : final.shared.crashed = false) : Kept final.shared final.threads := by
  have kept := run_invariant act
    (fun group threads => threads.length ≤ intMax ∧ (group.crashed = false → Kept group threads))
    (fun action group next threads index point moved holds found acted => by
      refine ⟨by rw [List.length_set]; exact holds.1, fun running => ?_⟩
      obtain ⟨before, -⟩ := Option.ite_none_left_eq_some.mp acted
      exact act_kept group next threads index point moved action (holds.2 (Bool.eq_false_iff.mpr before)) holds.1
        found running acted)
    (created entered count) final events ran
    ⟨by rw [created, List.length_replicate]; exact few, fun _ => created_kept entered count⟩
  exact kept.2 running

-- The blocks of the wakes that have taken a list.
def Point.blocks (point : Point) : List Node := point.snapshot?.elim [] Snapshot.nodes

structure Accounts (final : System Group Point) : Prop where
  sleepers : weigh Point.sleeping final.threads =
    final.shared.dgWaiters + final.shared.dgSem + weigh Point.posts final.threads
  once : final.shared.registered.Nodup
  places : final.shared.registered.Perm
    (final.shared.submitted ++ final.shared.listed ++ final.threads.flatMap Point.blocks)
  alive : ∀ prev dsn, .notifyLink prev dsn ∈ final.threads → prev ∉ final.shared.submitted
  references : final.shared.doRefCnt + weigh Point.retains final.threads =
    final.shared.due + weigh Point.releases final.threads

theorem count_blocks (threads : List Point) (node : Node) :
    (threads.flatMap Point.blocks).count node = weigh (Point.holds node) threads := by
  induction threads with
  | nil => rfl
  | cons point rest ih =>
      have here : point.blocks.count node = point.holds node := by
        rw [Point.blocks, Point.holds]
        cases point.snapshot? <;> rfl
      rw [List.flatMap_cons, List.count_append, ih, here]
      rfl

theorem group_accounts (entered : Bool) (count : Nat) (few : count ≤ intMax) (final : System Group Point)
    (events : List (Nat × Action)) (ran : Runs.run (step act) (created entered count) events = some final)
    (running : final.shared.crashed = false) : Accounts final := by
  obtain ⟨waiting, listing, -, references⟩ := run_kept entered count few final events ran running
  refine ⟨waiting.sleepers, listing.fresh, List.perm_iff_count.mpr fun node => ?_, fun prev dsn member given => ?_,
    references⟩
  · rw [List.count_append, List.count_append, count_blocks]
    exact listing.counts node
  · obtain ⟨behind, missing⟩ := (listing.stands _ member).link prev dsn rfl
    rcases listing.alive prev given with absent | written
    · exact Option.some_ne_none dsn (behind.symm.trans absent)
    · exact written missing

theorem group_accounts_linking : ∃ final, Runs.run (step act) (created true 3)
    [(0, .notify 5), (0, .resume), (0, .resume), (1, .notify 6), (2, .wait dispatchTimeForever), (2, .resume),
      (2, .resume), (0, .resume), (0, .leave), (0, .resume), (0, .resume), (0, .resume), (0, .resume)] = some final ∧
    final.threads = [.wakeSubmit ⟨5, 6, [5, 6]⟩ .leave, .notifyLink 5 6, .waitCheck dispatchTimeForever] ∧
    Accounts final := by
  have ran : (Runs.run (step act) (created true 3)
    [(0, .notify 5), (0, .resume), (0, .resume), (1, .notify 6), (2, .wait dispatchTimeForever), (2, .resume),
      (2, .resume), (0, .resume), (0, .leave), (0, .resume), (0, .resume), (0, .resume), (0, .resume)]).isSome
        = true := by decide
  exact ⟨_, (Option.some_get ran).symm, rfl, group_accounts true 3 (by decide) _ _ (Option.some_get ran).symm rfl⟩

-- No thread can go on by itself: each is out of the calls, or the kernel blocks it.
def Settled (final : System Group Point) : Prop :=
  ∀ index < final.threads.length, step act final (index, .resume) = none

structure SettledGroup (final : System Group Point) : Prop where
  blocked : ∀ point ∈ final.threads, point = .idle ∨ point = .timedwait ∨ point = .wait
  sleepers : weigh Point.sleeping final.threads = final.shared.dgWaiters
  places : final.shared.registered.Perm (final.shared.submitted ++ final.shared.listed)
  references : final.shared.doRefCnt = final.shared.due
  left : final.shared.dgValue = 0 → (∀ point ∈ final.threads, point = .idle) ∧ final.shared.listed = []

theorem settled_resume (final : System Group Point) (running : final.shared.crashed = false) (settled : Settled final)
    (point : Point) (member : point ∈ final.threads) : resume final.shared point = none := by
  obtain ⟨index, inside, found⟩ := List.mem_iff_getElem.mp member
  have stuck := settled index inside
  rwa [step, List.getElem?_eq_getElem inside, found, Option.bind_some, Option.map_eq_none_iff, act, running,
    if_neg Bool.false_ne_true] at stuck

-- A wake that waits for a link waits for the thread that is about to write it.
theorem settled_submit (final : System Group Point) (running : final.shared.crashed = false) (settled : Settled final)
    (holds : Listing final.shared.toNotifyList final.threads) (snapshot : Snapshot) (after : After)
    (member : .wakeSubmit snapshot after ∈ final.threads) : False := by
  have stuck := settled_resume final running settled _ member
  obtain ⟨first, last, chain, -⟩ := (holds.stands _ member).snapshot snapshot rfl
  obtain ⟨rest, nodes⟩ := List.head?_eq_some_iff.mp first
  rw [nodes] at last chain
  rw [resume, wakeSubmit] at stuck
  by_cases same : snapshot.head = snapshot.tail
  · rw [if_pos same] at stuck
    cases stuck
  · rw [if_neg same, Option.map_eq_none_iff] at stuck
    cases rest with
    | nil => exact same (Option.some.inj last)
    | cons second rest =>
        have behind := (List.isChain_cons_cons.mp chain).1
        have linking := (holds.linkers snapshot.head).2.mpr
          ⟨fun absent => Option.some_ne_none second (behind.symm.trans absent), stuck⟩
        have nobody : weigh (Point.linksFrom snapshot.head) final.threads = 0 := by
          refine (weigh_eq_zero_iff _ _).mpr fun point inside => ?_
          have stays := settled_resume final running settled point inside
          cases point with
          | notifyLink prev dsn => cases stays
          | _ => rfl
        omega

theorem settled_blocked (final : System Group Point) (running : final.shared.crashed = false) (settled : Settled final)
    (holds : Listing final.shared.toNotifyList final.threads) (point : Point) (member : point ∈ final.threads) :
    point = .idle ∨ (point = .timedwait ∨ point = .wait) ∧ final.shared.dgSem = 0 := by
  have stuck := settled_resume final running settled point member
  have empty (blocked : semWait final.shared = none) : final.shared.dgSem = 0 := by
    by_contra full
    exact Option.some_ne_none _ ((if_neg full).symm.trans blocked)
  cases point with
  | idle => exact Or.inl rfl
  | timedwait => exact Or.inr ⟨Or.inl rfl, empty stuck⟩
  | wait => exact Or.inr ⟨Or.inr rfl, empty stuck⟩
  | wakeSubmit snapshot after => exact (settled_submit final running settled holds snapshot after member).elim
  | _ => cases stuck

theorem group_settles (entered : Bool) (count : Nat) (few : count ≤ intMax) (final : System Group Point)
    (events : List (Nat × Action)) (ran : Runs.run (step act) (created entered count) events = some final)
    (running : final.shared.crashed = false) (settled : Settled final) : SettledGroup final := by
  obtain ⟨waiting, listing, notified, references⟩ := run_kept entered count few final events ran running
  have blocked := settled_blocked final running settled listing
  have none (weight : Point → Nat) (idle : weight .idle = 0) (timed : weight .timedwait = 0)
    (waits : weight .wait = 0) :
      weigh weight final.threads = 0 := by
    refine (weigh_eq_zero_iff _ _).mpr fun point member => ?_
    rcases blocked point member with rfl | ⟨rfl | rfl, -⟩
    · exact idle
    · exact timed
    · exact waits
  have sleepers := waiting.sleepers
  rw [none Point.posts rfl rfl rfl] at sleepers
  rw [none Point.retains rfl rfl rfl, none Point.releases rfl rfl rfl] at references
  have drained : final.shared.dgSem = 0 := by
    by_contra full
    have nobody : weigh Point.sleeping final.threads = 0 := by
      refine (weigh_eq_zero_iff _ _).mpr fun point member => ?_
      rcases blocked point member with rfl | ⟨-, empty⟩
      · rfl
      · exact (full empty).elim
    omega
  have places : final.shared.registered.Perm (final.shared.submitted ++ final.shared.listed) := by
    refine List.perm_iff_count.mpr fun node => ?_
    rw [List.count_append]
    have counts := listing.counts node
    rwa [none (Point.holds node) rfl rfl rfl] at counts
  refine ⟨fun point member => (blocked point member).imp_right And.left, by omega, places, by omega,
    fun zero => ⟨?_, ?_⟩⟩
  · have nobody : weigh Point.sleeping final.threads = 0 := by
      have woken := waiting.woken zero
      rw [none Point.waking rfl rfl rfl] at woken
      by_contra some
      exact Nat.lt_irrefl 0 (woken (by omega))
    intro point member
    have awake := (weigh_eq_zero_iff _ _).mp nobody point member
    rcases blocked point member with rfl | ⟨rfl | rfl, -⟩
    · rfl
    · cases awake
    · cases awake
  · have headless : final.shared.dgNotifyHead = Option.none := by
      by_contra set
      have takes := notified zero set
      rw [none Point.taking rfl rfl rfl] at takes
      exact Nat.lt_irrefl 0 takes
    by_contra nonempty
    have written := listing.writers.2.mpr ⟨headless, nonempty⟩
    rw [none Point.fronts rfl rfl rfl] at written
    exact Nat.lt_irrefl 0 written

theorem group_settles_notified : ∃ final, Runs.run (step act) (created true 3)
    [(0, .notify 5), (0, .resume), (0, .resume), (1, .notify 6), (2, .wait dispatchTimeForever), (2, .resume),
      (2, .resume), (0, .resume), (0, .leave), (0, .resume), (0, .resume), (0, .resume), (0, .resume),
      (1, .resume), (0, .resume), (0, .resume), (0, .resume), (0, .resume), (2, .resume), (2, .resume), (2, .resume),
      (2, .resume)] = some final ∧ final.shared.submitted = [5, 6] ∧ SettledGroup final := by
  have ran : (Runs.run (step act) (created true 3)
    [(0, .notify 5), (0, .resume), (0, .resume), (1, .notify 6), (2, .wait dispatchTimeForever), (2, .resume),
      (2, .resume), (0, .resume), (0, .leave), (0, .resume), (0, .resume), (0, .resume), (0, .resume),
      (1, .resume), (0, .resume), (0, .resume), (0, .resume), (0, .resume), (2, .resume), (2, .resume), (2, .resume),
      (2, .resume)]).isSome = true := by decide
  refine ⟨_, (Option.some_get ran).symm, rfl, group_settles true 3 (by decide) _ _ (Option.some_get ran).symm rfl fun
    index _ => ?_⟩
  match index with
  | 0 => rfl
  | 1 => rfl
  | 2 => rfl
  | index + 3 => rfl

end CultivationMotain.Dispatch.Groups

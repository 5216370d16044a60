import CultivationMotain.Dispatch.Apply

set_option autoImplicit false

namespace CultivationMotain.Dispatch.Applies

open Threads Weights

theorem waited_le_caller (thread : Invocation) : thread.waited ≤ thread.caller := by
  obtain ⟨waits, point⟩ := thread
  cases point <;> simp [Invocation.waited]

theorem left_le_one (thread : Invocation) : thread.left ≤ 1 := by
  obtain ⟨waits, point⟩ := thread
  cases point <;> simp [Invocation.left]

theorem past_le_one (thread : Invocation) : thread.past ≤ 1 := by
  obtain ⟨waits, point⟩ := thread
  cases point <;> simp [Invocation.past]

-- A thread that a weight of at most one leaves out makes room for itself.
theorem weigh_room (weight : Invocation → Nat) (small : ∀ thread, weight thread ≤ 1) (threads : List Invocation)
    (index : Nat) (thread : Invocation) (found : threads[index]? = some thread) (light : weight thread = 0) :
    weigh weight threads + 1 ≤ threads.length := by
  obtain ⟨inside, -⟩ := List.getElem?_eq_some_iff.mp found
  have others := weigh_erase weight threads index thread found
  have bound := weigh_le_length weight (threads.eraseIdx index) small
  rw [List.length_eraseIdx_of_lt inside] at bound
  omega

section Step

variable (iterations count : Nat) (da next : Apply) (threads : List Invocation) (index : Nat)
  (thread moved : Invocation)

-- There is one caller, so that nobody else has waited when it has not.
theorem nobody_waited (callers : weigh Invocation.caller threads = 1) (found : threads[index]? = some thread)
    (waits : thread.waits = true) (before : thread.waited = 0) : weigh Invocation.waited threads = 0 := by
  have others := weigh_erase Invocation.caller threads index thread found
  have mine : thread.caller = 1 := if_pos waits
  have rest := weigh_erase Invocation.waited threads index thread found
  have less := weigh_mono Invocation.waited Invocation.caller (threads.eraseIdx index) waited_le_caller
  omega

theorem work_same (holds : Work iterations da threads) (found : threads[index]? = some thread)
    (hand : moved.inHand = thread.inHand) (signals : moved.signals = thread.signals)
    (waited : moved.waited = thread.waited) (called : next.called = da.called) (todo : next.daTodo = da.daTodo)
    (event : next.dteSem = da.dteSem) : Work iterations next (threads.set index moved) := by
  refine ⟨?_, ?_, todo ▸ holds.bounded⟩
  · rw [called, todo, weigh_same _ threads index thread moved found hand]
    exact holds.todo
  · rw [todo, event, weigh_same _ threads index thread moved found signals,
      weigh_same _ threads index thread moved found waited]
    exact holds.event

theorem work_subtracted (holds : Work iterations da threads) (claims : Claims iterations da threads) (waits : Bool)
    (done todo : Nat) (found : threads[index]? = some ⟨waits, .subtract done⟩) (some_done : 0 < done)
    (few : iterations < sizeLimit) (left : (da.daTodo + sizeLimit - done) % sizeLimit = todo) :
    Work iterations { da with daTodo := todo } (threads.set index ⟨waits, if todo = 0 then .signal else .out⟩) := by
  have called := called_length iterations da threads claims
  have balance := holds.todo
  have event := holds.event
  have bounded := holds.bounded
  obtain ⟨inside, there⟩ := List.getElem?_eq_some_iff.mp found
  have mine : done ≤ weigh Invocation.inHand threads :=
    weight_le_weigh Invocation.inHand threads ⟨waits, .subtract done⟩ (there ▸ List.getElem_mem inside)
  have value : da.daTodo = todo + done := by
    have same : da.daTodo + sizeLimit - done = da.daTodo - done + sizeLimit := by omega
    rw [same, Nat.add_mod_right, Nat.mod_eq_of_lt (by omega)] at left
    omega
  rw [if_neg (by omega)] at event
  have hand := weigh_set Invocation.inHand threads index _ ⟨waits, if todo = 0 then .signal else .out⟩ found
  have signals := weigh_set Invocation.signals threads index _ ⟨waits, if todo = 0 then .signal else .out⟩ found
  have waited := weigh_set Invocation.waited threads index _ ⟨waits, if todo = 0 then .signal else .out⟩ found
  have before : Invocation.inHand ⟨waits, .subtract done⟩ = done := rfl
  have quiet : Invocation.signals ⟨waits, .subtract done⟩ = 0 := rfl
  have inside : Invocation.waited ⟨waits, .subtract done⟩ = 0 := rfl
  by_cases last : todo = 0
  · rw [if_pos last] at hand signals waited ⊢
    have after : Invocation.inHand ⟨waits, .signal⟩ = 0 := rfl
    have signalling : Invocation.signals ⟨waits, .signal⟩ = 1 := rfl
    have there : Invocation.waited ⟨waits, .signal⟩ = 0 := rfl
    refine ⟨?_, ?_, ?_⟩
    · dsimp only
      omega
    · dsimp only
      rw [if_pos last]
      omega
    · dsimp only
      omega
  · rw [if_neg last] at hand signals waited ⊢
    have after : Invocation.inHand ⟨waits, .out⟩ = 0 := rfl
    have signalling : Invocation.signals ⟨waits, .out⟩ = 0 := rfl
    have there : Invocation.waited ⟨waits, .out⟩ = 0 := rfl
    refine ⟨?_, ?_, ?_⟩
    · dsimp only
      omega
    · dsimp only
      rw [if_neg last]
      omega
    · dsimp only
      omega

theorem work_called (holds : Work iterations da threads) (waits : Bool) (idx done : Nat)
    (found : threads[index]? = some ⟨waits, .callout idx done⟩) :
    Work iterations { da with called := da.called ++ [idx] } (threads.set index ⟨waits, .next (done + 1)⟩) := by
  refine ⟨?_, ?_, holds.bounded⟩
  · have balance := holds.todo
    have hand := weigh_set Invocation.inHand threads index _ ⟨waits, .next (done + 1)⟩ found
    have before : Invocation.inHand ⟨waits, .callout idx done⟩ = done := rfl
    have after : Invocation.inHand ⟨waits, .next (done + 1)⟩ = done + 1 := rfl
    dsimp only
    rw [List.length_append, List.length_singleton]
    omega
  · rw [weigh_same Invocation.signals threads index _ ⟨waits, .next (done + 1)⟩ found rfl,
      weigh_same Invocation.waited threads index _ ⟨waits, .next (done + 1)⟩ found rfl]
    exact holds.event

-- The signal goes from the thread to the event, and from there to the caller.
theorem work_signalled (holds : Work iterations da threads) (waits : Bool)
    (found : threads[index]? = some ⟨waits, .signal⟩) :
    Work iterations { da with dteSem := da.dteSem + 1 } (threads.set index ⟨waits, .out⟩) := by
  refine ⟨?_, ?_, holds.bounded⟩
  · rw [weigh_same Invocation.inHand threads index _ ⟨waits, .out⟩ found rfl]
    exact holds.todo
  · have event := holds.event
    have signals := weigh_set Invocation.signals threads index _ ⟨waits, .out⟩ found
    have before : Invocation.signals ⟨waits, .signal⟩ = 1 := rfl
    have after : Invocation.signals ⟨waits, .out⟩ = 0 := rfl
    rw [weigh_same Invocation.waited threads index _ ⟨waits, .out⟩ found rfl, ← event]
    dsimp only
    omega

theorem work_waited (holds : Work iterations da threads) (waits : Bool)
    (found : threads[index]? = some ⟨waits, .wait⟩) (caller : waits = true) (signalled : da.dteSem ≠ 0) :
    Work iterations { da with dteSem := da.dteSem - 1 } (threads.set index ⟨waits, .leave⟩) := by
  refine ⟨?_, ?_, holds.bounded⟩
  · rw [weigh_same Invocation.inHand threads index _ ⟨waits, .leave⟩ found rfl]
    exact holds.todo
  · have event := holds.event
    have waited := weigh_set Invocation.waited threads index _ ⟨waits, .leave⟩ found
    have before : Invocation.waited ⟨waits, .wait⟩ = 0 := rfl
    have after : Invocation.waited ⟨waits, .leave⟩ = 1 := if_pos caller
    rw [weigh_same Invocation.signals threads index _ ⟨waits, .leave⟩ found rfl, ← event]
    dsimp only
    omega

theorem work_kept (holds : Work iterations da threads) (claims : Claims iterations da threads)
    (found : threads[index]? = some thread) (placed : thread.Placed) (few : iterations < sizeLimit)
    (moves : Move da thread next moved) : Work iterations next (threads.set index moved) := by
  cases moves with
  | start waits => exact work_same iterations da da threads index _ _ holds found rfl rfl rfl rfl rfl rfl
  | first waits inside => exact work_same iterations da _ threads index _ _ holds found rfl rfl rfl rfl rfl rfl
  | late waits outside => exact work_same iterations da _ threads index _ _ holds found rfl rfl rfl rfl rfl rfl
  | call waits idx done => exact work_called iterations da threads index holds waits idx done found
  | again waits done inside => exact work_same iterations da _ threads index _ _ holds found rfl rfl rfl rfl rfl rfl
  | stop waits done outside => exact work_same iterations da _ threads index _ _ holds found rfl rfl rfl rfl rfl rfl
  | subtract waits done todo left =>
      exact work_subtracted iterations da threads index holds claims waits done todo found placed few left
  | signal waits => exact work_signalled iterations da threads index holds waits found
  | out waits =>
      cases waits with
      | true => exact work_same iterations da da threads index _ _ holds found rfl rfl rfl rfl rfl rfl
      | false => exact work_same iterations da da threads index _ _ holds found rfl rfl rfl rfl rfl rfl
  | wait waits signalled => exact work_waited iterations da threads index holds waits found placed signalled
  | leave waits thrCnt left =>
      by_cases last : thrCnt = 0
      · rw [if_pos last]
        exact work_same iterations da _ threads index _ _ holds found rfl rfl rfl rfl rfl rfl
      · rw [if_neg last]
        exact work_same iterations da _ threads index _ _ holds found rfl rfl rfl rfl rfl rfl
  | free waits => exact work_same iterations da _ threads index _ _ holds found rfl rfl rfl rfl rfl rfl

theorem leaving_same (holds : Leaving count da threads) (found : threads[index]? = some thread)
    (left : moved.left = thread.left) (frees : moved.frees = thread.frees) (thrCnt : next.daThrCnt = da.daThrCnt)
    (freed : next.freed = da.freed) : Leaving count next (threads.set index moved) := by
  refine ⟨?_, ?_⟩
  · rw [thrCnt, weigh_same _ threads index thread moved found left]
    exact holds.thrCnt
  · rw [thrCnt, freed, weigh_same _ threads index thread moved found frees]
    exact holds.freed

theorem leaving_left (holds : Leaving count da threads) (length : threads.length = count) (few : count < countLimit)
    (waits : Bool) (thrCnt : Nat) (found : threads[index]? = some ⟨waits, .leave⟩)
    (left : (da.daThrCnt + countLimit - 1) % countLimit = thrCnt) :
    Leaving count { da with daThrCnt := thrCnt }
      (threads.set index ⟨waits, if thrCnt = 0 then .free else .returned⟩) := by
  have counted := holds.thrCnt
  have freed := holds.freed
  have room := weigh_room Invocation.left left_le_one threads index _ found rfl
  have value : da.daThrCnt = thrCnt + 1 := by
    have same : da.daThrCnt + countLimit - 1 = da.daThrCnt - 1 + countLimit := by omega
    rw [same, Nat.add_mod_right, Nat.mod_eq_of_lt (by omega)] at left
    omega
  rw [if_neg (by omega)] at freed
  have gone := weigh_set Invocation.left threads index _ ⟨waits, if thrCnt = 0 then .free else .returned⟩ found
  have frees := weigh_set Invocation.frees threads index _ ⟨waits, if thrCnt = 0 then .free else .returned⟩ found
  have before : Invocation.left ⟨waits, .leave⟩ = 0 := rfl
  have quiet : Invocation.frees ⟨waits, .leave⟩ = 0 := rfl
  by_cases last : thrCnt = 0
  · rw [if_pos last] at gone frees ⊢
    have after : Invocation.left ⟨waits, .free⟩ = 1 := rfl
    have freeing : Invocation.frees ⟨waits, .free⟩ = 1 := rfl
    refine ⟨?_, ?_⟩
    · dsimp only
      omega
    · dsimp only
      rw [if_pos last]
      omega
  · rw [if_neg last] at gone frees ⊢
    have after : Invocation.left ⟨waits, .returned⟩ = 1 := rfl
    have freeing : Invocation.frees ⟨waits, .returned⟩ = 0 := rfl
    refine ⟨?_, ?_⟩
    · dsimp only
      omega
    · dsimp only
      rw [if_neg last]
      omega

theorem leaving_freed (holds : Leaving count da threads) (waits : Bool)
    (found : threads[index]? = some ⟨waits, .free⟩) :
    Leaving count { da with freed := da.freed + 1 } (threads.set index ⟨waits, .returned⟩) := by
  refine ⟨?_, ?_⟩
  · rw [weigh_same Invocation.left threads index _ ⟨waits, .returned⟩ found rfl]
    exact holds.thrCnt
  · have freed := holds.freed
    have frees := weigh_set Invocation.frees threads index _ ⟨waits, .returned⟩ found
    have before : Invocation.frees ⟨waits, .free⟩ = 1 := rfl
    have after : Invocation.frees ⟨waits, .returned⟩ = 0 := rfl
    dsimp only
    rw [← freed]
    omega

theorem leaving_kept (holds : Leaving count da threads) (length : threads.length = count) (few : count < countLimit)
    (found : threads[index]? = some thread) (moves : Move da thread next moved) :
    Leaving count next (threads.set index moved) := by
  cases moves with
  | start waits => exact leaving_same count da da threads index _ _ holds found rfl rfl rfl rfl
  | first waits inside => exact leaving_same count da _ threads index _ _ holds found rfl rfl rfl rfl
  | late waits outside => exact leaving_same count da _ threads index _ _ holds found rfl rfl rfl rfl
  | call waits idx done => exact leaving_same count da _ threads index _ _ holds found rfl rfl rfl rfl
  | again waits done inside => exact leaving_same count da _ threads index _ _ holds found rfl rfl rfl rfl
  | stop waits done outside => exact leaving_same count da _ threads index _ _ holds found rfl rfl rfl rfl
  | subtract waits done todo left =>
      by_cases last : todo = 0
      · rw [if_pos last]
        exact leaving_same count da _ threads index _ _ holds found rfl rfl rfl rfl
      · rw [if_neg last]
        exact leaving_same count da _ threads index _ _ holds found rfl rfl rfl rfl
  | signal waits => exact leaving_same count da _ threads index _ _ holds found rfl rfl rfl rfl
  | out waits =>
      cases waits with
      | true => exact leaving_same count da da threads index _ _ holds found rfl rfl rfl rfl
      | false => exact leaving_same count da da threads index _ _ holds found rfl rfl rfl rfl
  | wait waits signalled => exact leaving_same count da _ threads index _ _ holds found rfl rfl rfl rfl
  | leave waits thrCnt left => exact leaving_left count da threads index holds length few waits thrCnt found left
  | free waits => exact leaving_freed count da threads index holds waits found

theorem move_placed (placed : thread.Placed) (moves : Move da thread next moved) :
    moved.Placed ∧ moved.waits = thread.waits := by
  cases moves with
  | start waits | first waits inside | late waits outside | again waits done inside => exact ⟨trivial, rfl⟩
  | signal waits | wait waits signalled | free waits => exact ⟨trivial, rfl⟩
  | call waits idx done => exact ⟨Nat.succ_pos done, rfl⟩
  | stop waits done outside => exact ⟨placed, rfl⟩
  | subtract waits done todo left =>
      by_cases last : todo = 0
      · rw [if_pos last]
        exact ⟨trivial, rfl⟩
      · rw [if_neg last]
        exact ⟨trivial, rfl⟩
  | out waits =>
      cases waits with
      | true => exact ⟨rfl, rfl⟩
      | false => exact ⟨trivial, rfl⟩
  | leave waits thrCnt left =>
      by_cases last : thrCnt = 0
      · rw [if_pos last]
        exact ⟨trivial, rfl⟩
      · rw [if_neg last]
        exact ⟨trivial, rfl⟩

-- At most one increment a thread is in vain.
theorem index_unwrapped (holds : Kept iterations count da threads) (room : iterations + count < sizeLimit)
    (found : threads[index]? = some thread) (before : thread.past = 0) : da.daIndex + 1 < sizeLimit := by
  have past := holds.claims.past
  have others := weigh_room Invocation.past past_le_one threads index thread found before
  have length := holds.length
  omega

theorem act_kept (action : Unit) (holds : Kept iterations count da threads) (few : count < countLimit)
    (room : iterations + count < sizeLimit) (found : threads[index]? = some thread)
    (acted : act action da thread = some (next, moved)) : Kept iterations count next (threads.set index moved) := by
  obtain ⟨inside, there⟩ := List.getElem?_eq_some_iff.mp found
  have moves := act_moves action da next thread moved acted
  have here := holds.placed thread (there ▸ List.getElem_mem inside)
  obtain ⟨placed, same⟩ := move_placed da next thread moved here moves
  refine ⟨claims_kept iterations da next threads index thread moved holds.claims found
      (index_unwrapped iterations count da threads index thread holds room found) moves,
    work_kept iterations da next threads index thread moved holds.work holds.claims found here (by omega) moves,
    leaving_kept count da next threads index thread moved holds.leaving holds.length few found moves, ?_, ?_, ?_⟩
  · rw [List.length_set, holds.length]
  · rw [weigh_same _ threads index thread moved found (by rw [Invocation.caller, same, Invocation.caller])]
    exact holds.callers
  · exact forall_mem_set Invocation.Placed threads index moved
      (forall_mem_erase _ threads index holds.placed) placed

end Step

theorem weigh_created (weight : Invocation → Nat) (thrCnt : Nat) :
    weigh weight (⟨true, .acquire⟩ :: List.replicate (thrCnt - 1) ⟨false, .queued⟩) =
      weight ⟨true, .acquire⟩ + (thrCnt - 1) * weight ⟨false, .queued⟩ := by
  rw [← weigh_replicate]
  rfl

theorem created_kept (iterations thrCnt : Nat) (some_iterations : 0 < iterations) (some_threads : 0 < thrCnt) :
    Kept iterations thrCnt (created iterations thrCnt).shared (created iterations thrCnt).threads := by
  have nobody : ∀ weight : Invocation → Nat, weight ⟨true, .acquire⟩ = 0 → weight ⟨false, .queued⟩ = 0 →
      weigh weight (created iterations thrCnt).threads = 0 := by
    intro weight caller queued
    rw [created, weigh_created, caller, queued, Nat.mul_zero]
  refine ⟨⟨rfl, fun idx => ?_, ?_⟩, ⟨?_, ?_, Nat.le_refl _⟩, ⟨?_, ?_⟩, ?_, ?_, ?_⟩
  · rw [nobody _ rfl rfl]
    exact (if_neg (by rw [created, Nat.zero_min]; exact Nat.not_lt_zero idx)).symm
  · rw [nobody Invocation.past rfl rfl]
    exact (Nat.zero_sub iterations).symm
  · rw [nobody Invocation.inHand rfl rfl]
    exact Nat.zero_add iterations
  · rw [nobody Invocation.signals rfl rfl, nobody Invocation.waited rfl rfl]
    exact (if_neg some_iterations.ne').symm
  · rw [nobody Invocation.left rfl rfl]
    rfl
  · rw [nobody Invocation.frees rfl rfl]
    exact (if_neg some_threads.ne').symm
  · rw [created, List.length_cons, List.length_replicate, Nat.sub_add_cancel some_threads]
  · rw [created, weigh_created]
    exact congrArg (1 + ·) (Nat.mul_zero (thrCnt - 1))
  · intro thread member
    rcases List.mem_cons.mp member with rfl | queued
    · trivial
    · rw [List.eq_of_mem_replicate queued]
      rfl

section Runs

variable (iterations thrCnt : Nat) (some_iterations : 0 < iterations) (some_threads : 0 < thrCnt)
  (few : thrCnt < countLimit) (room : iterations + thrCnt < sizeLimit) (final : System Apply Invocation)
  (events : List (Nat × Unit)) (ran : Runs.run (step act) (created iterations thrCnt) events = some final)

include some_iterations some_threads few room ran

theorem run_kept : Kept iterations thrCnt final.shared final.threads :=
  run_invariant act (Kept iterations thrCnt)
    (fun action shared next threads index thread moved holds found acted =>
      act_kept iterations thrCnt shared next threads index thread moved action holds few room found acted)
    (created iterations thrCnt) final events ran (created_kept iterations thrCnt some_iterations some_threads)

end Runs

-- The thread uses what lies on the stack of the caller, or is in a call.
def Invocation.busy (thread : Invocation) : Prop :=
  (∃ idx done, thread.point = .callout idx done) ∨ (∃ done, thread.point = .next done) ∨ thread.point = .signal

structure AppliedOnce (iterations : Nat) (final : System Apply Invocation) : Prop where
  once : ∀ idx, final.shared.called.count idx + weigh (fun thread => thread.calls idx) final.threads ≤ 1
  inside : ∀ idx ∈ final.shared.called, idx < iterations
  complete : ∀ thread ∈ final.threads, thread.waited = 1 →
    final.shared.called.Perm (List.range iterations) ∧ ∀ other ∈ final.threads, ¬other.busy
  freed : final.shared.freed ≤ 1
  unused : final.shared.freed = 1 → ∀ thread ∈ final.threads, thread.point = .returned

section Kept

variable (iterations count : Nat) (da : Apply) (threads : List Invocation) (holds : Kept iterations count da threads)

include holds

-- When the caller has been let through, every call has returned.
theorem waited_complete (some_waited : 0 < weigh Invocation.waited threads) :
    da.called.Perm (List.range iterations) ∧ weigh Invocation.inHand threads = 0 ∧
      weigh Invocation.signals threads = 0 := by
  have event := holds.work.event
  have balance := holds.work.todo
  have bound := called_length iterations da threads holds.claims
  by_cases ended : da.daTodo = 0
  · rw [if_pos ended] at event
    exact ⟨called_all iterations da threads holds.claims (by omega), by omega, by omega⟩
  · rw [if_neg ended] at event
    omega

theorem waited_idle (some_waited : 0 < weigh Invocation.waited threads) (other : Invocation)
    (member : other ∈ threads) : ¬other.busy := by
  obtain ⟨all, hand, signals⟩ := waited_complete iterations count da threads holds some_waited
  rintro (⟨idx, done, here⟩ | ⟨done, here⟩ | here)
  · have claimed := holds.claims.claimed idx
    have calling := weight_le_weigh (fun thread => thread.calls idx) threads other member
    have mine : other.calls idx = 1 := by
      rw [Invocation.calls, here]
      exact if_pos rfl
    by_cases reached : idx < min da.daIndex iterations
    · have counted : da.called.count idx = 1 := by
        rw [all.count_eq]
        exact List.count_eq_one_of_mem List.nodup_range (List.mem_range.mpr (by omega))
      rw [if_pos reached] at claimed
      omega
    · rw [if_neg reached] at claimed
      omega
  · have placed := holds.placed other member
    rw [Invocation.Placed, here] at placed
    have mine : other.inHand = done := by rw [Invocation.inHand, here]
    have less := weight_le_weigh Invocation.inHand threads other member
    have some_done : 0 < done := placed
    omega
  · have mine : other.signals = 1 := if_pos here
    have less := weight_le_weigh Invocation.signals threads other member
    omega

theorem freed_unused (freed : da.freed = 1) (thread : Invocation) (member : thread ∈ threads) :
    thread.point = .returned := by
  have gone := holds.leaving.thrCnt
  have frees := holds.leaving.freed
  have length := holds.length
  obtain ⟨index, inside, there⟩ := List.mem_iff_getElem.mp member
  have found : threads[index]? = some thread := by rw [List.getElem?_eq_getElem inside, there]
  by_cases ended : da.daThrCnt = 0
  · rw [if_pos ended] at frees
    have left : thread.left ≠ 0 := by
      intro stays
      have room := weigh_room Invocation.left left_le_one threads index thread found stays
      omega
    have calm : thread.frees = 0 := by
      have less := weight_le_weigh Invocation.frees threads thread member
      omega
    obtain ⟨waits, point⟩ := thread
    cases point with
    | free => cases calm
    | returned => rfl
    | _ => exact absurd rfl left
  · rw [if_neg ended] at frees
    omega

end Kept

-- Each iteration is called once, the caller goes on when all calls have returned,
-- and the last thread that leaves frees the object.
theorem apply_once (iterations thrCnt : Nat) (some_iterations : 0 < iterations) (some_threads : 0 < thrCnt)
    (few : thrCnt < countLimit) (room : iterations + thrCnt < sizeLimit) (final : System Apply Invocation)
    (events : List (Nat × Unit)) (ran : Runs.run (step act) (created iterations thrCnt) events = some final) :
    AppliedOnce iterations final := by
  have kept := run_kept iterations thrCnt some_iterations some_threads few room final events ran
  refine ⟨fun idx => ?_, called_inside iterations final.shared final.threads kept.claims, ?_, ?_,
    freed_unused iterations thrCnt final.shared final.threads kept⟩
  · rw [kept.claims.claimed idx]
    by_cases reached : idx < min final.shared.daIndex iterations
    · rw [if_pos reached]
    · rw [if_neg reached]
      exact Nat.zero_le 1
  · intro thread member waited
    have some_waited : 0 < weigh Invocation.waited final.threads := by
      have less := weight_le_weigh Invocation.waited final.threads thread member
      omega
    exact ⟨(waited_complete iterations thrCnt final.shared final.threads kept some_waited).1,
      waited_idle iterations thrCnt final.shared final.threads kept some_waited⟩
  · have freed := kept.leaving.freed
    by_cases ended : final.shared.daThrCnt = 0
    · rw [if_pos ended] at freed
      omega
    · rw [if_neg ended] at freed
      omega

-- Two threads and three iterations, in turn.
def inTurn : List (Nat × Unit) :=
  [0, 1, 1, 0, 0, 1, 0, 1, 1, 0, 0, 0, 1, 0, 0, 0, 1, 1].map fun index => (index, ())

theorem apply_once_in_turn : ∃ final : System Apply Invocation,
    final = ⟨⟨5, 0, 3, 0, 0, [0, 1, 2], 1⟩, [⟨true, .returned⟩, ⟨false, .returned⟩]⟩ ∧ AppliedOnce 3 final :=
  ⟨_, rfl, apply_once 3 2 (by decide) (by decide) (by decide) (by decide) _ inTurn (by decide +kernel)⟩

-- The steps that a thread still takes, but for the iterations it will be given:
-- each of these is two more.
def Invocation.stepsLeft (thread : Invocation) : Nat :=
  match thread.point with
  | .queued | .callout _ _ => 8
  | .acquire | .next _ => 7
  | .subtract _ => 6
  | .signal => 5
  | .out => 4
  | .wait => 3
  | .leave => 2
  | .free => 1
  | .returned => 0

theorem move_less (da next : Apply) (thread moved : Invocation) (room : thread.past = 0 → da.daIndex + 1 < sizeLimit)
    (moves : Move da thread next moved) :
    2 * (next.daIterations - next.daIndex) + moved.stepsLeft <
      2 * (da.daIterations - da.daIndex) + thread.stepsLeft := by
  cases moves with
  | start waits => exact Nat.lt_succ_self _
  | call waits idx done => exact Nat.lt_succ_self _
  | signal waits => exact Nat.lt_succ_self _
  | wait waits signalled => exact Nat.lt_succ_self _
  | free waits => exact Nat.lt_succ_self _
  | first waits inside | again waits done inside =>
      rw [incremented_index da (room rfl)]
      change 2 * (da.daIterations - (da.daIndex + 1)) + 8 < 2 * (da.daIterations - da.daIndex) + 7
      omega
  | late waits outside =>
      rw [incremented_index da (room rfl)]
      change 2 * (da.daIterations - (da.daIndex + 1)) + 4 < 2 * (da.daIterations - da.daIndex) + 7
      omega
  | stop waits done outside =>
      rw [incremented_index da (room rfl)]
      change 2 * (da.daIterations - (da.daIndex + 1)) + 6 < 2 * (da.daIterations - da.daIndex) + 7
      omega
  | subtract waits done todo left =>
      refine Nat.add_lt_add_left ?_ _
      by_cases last : todo = 0
      · rw [if_pos last]
        exact (by decide : 5 < 6)
      · rw [if_neg last]
        exact (by decide : 4 < 6)
  | out waits => cases waits <;> exact Nat.add_lt_add_left (by decide) _
  | leave waits thrCnt left =>
      refine Nat.add_lt_add_left ?_ _
      by_cases last : thrCnt = 0
      · rw [if_pos last]
        exact (by decide : 1 < 2)
      · rw [if_neg last]
        exact (by decide : 0 < 2)

-- No thread that a worker has taken can go on.
def Settled (final : System Apply Invocation) : Prop :=
  ∀ index < final.threads.length, final.threads[index]?.map Invocation.point = some .queued ∨
    step act final (index, ()) = none

instance (final : System Apply Invocation) : Decidable (Settled final) :=
  inferInstanceAs (Decidable (∀ index < final.threads.length,
    final.threads[index]?.map Invocation.point = some .queued ∨ step act final (index, ()) = none))

theorem settled_point (final : System Apply Invocation) (settled : Settled final) (thread : Invocation)
    (member : thread ∈ final.threads) :
    thread.point = .queued ∨ thread.point = .returned ∨ (thread.point = .wait ∧ final.shared.dteSem = 0) := by
  obtain ⟨index, inside, found⟩ := List.mem_iff_getElem.mp member
  rcases settled index inside with queued | stuck
  · rw [List.getElem?_eq_getElem inside, found, Option.map_some] at queued
    exact Or.inl (Option.some.inj queued)
  · rw [step, List.getElem?_eq_getElem inside, found, Option.bind_some, Option.map_eq_none_iff] at stuck
    obtain ⟨waits, point⟩ := thread
    cases point with
    | queued => exact Or.inl rfl
    | returned => exact Or.inr (Or.inl rfl)
    | wait =>
        refine Or.inr (Or.inr ⟨rfl, ?_⟩)
        by_contra signalled
        exact Option.some_ne_none _ ((if_neg signalled).symm.trans stuck)
    | acquire | next done =>
        by_cases more : final.shared.daIndex < final.shared.daIterations
        · exact (Option.some_ne_none _ ((if_pos more).symm.trans stuck)).elim
        · exact (Option.some_ne_none _ ((if_neg more).symm.trans stuck)).elim
    | callout _ _ | subtract _ | signal | out | leave | free => cases stuck

-- The caller does not need the workers: it returns when all iterations have been
-- called, even if no continuation is ever taken; and when they all have been, the
-- object is freed.
structure Returned (iterations : Nat) (final : System Apply Invocation) : Prop where
  called : final.shared.called.Perm (List.range iterations)
  gone : ∀ thread ∈ final.threads, thread.point = .returned ∨ thread = ⟨false, .queued⟩
  freed : (∀ thread ∈ final.threads, thread.point ≠ .queued) → final.shared.freed = 1

theorem settled_returned (iterations thrCnt : Nat) (final : System Apply Invocation)
    (kept : Kept iterations thrCnt final.shared final.threads) (settled : Settled final) :
    Returned iterations final := by
  have points := settled_point final settled
  have quiet : ∀ weight : Invocation → Nat, (∀ waits, weight ⟨waits, .queued⟩ = 0) →
      (∀ waits, weight ⟨waits, .returned⟩ = 0) → (∀ waits, weight ⟨waits, .wait⟩ = 0) →
      weigh weight final.threads = 0 := by
    intro weight queued returned waiting
    refine (weigh_eq_zero_iff weight final.threads).mpr fun thread member => ?_
    obtain ⟨waits, point⟩ := thread
    rcases points _ member with rfl | rfl | ⟨rfl, -⟩
    · exact queued waits
    · exact returned waits
    · exact waiting waits
  have hand := quiet Invocation.inHand (fun _ => rfl) (fun _ => rfl) fun _ => rfl
  have signals := quiet Invocation.signals (fun _ => rfl) (fun _ => rfl) fun _ => rfl
  have frees := quiet Invocation.frees (fun _ => rfl) (fun _ => rfl) fun _ => rfl
  have balance := kept.work.todo
  have event := kept.work.event
  obtain ⟨caller, member, waits⟩ := exists_of_weigh_pos Invocation.caller final.threads (by rw [kept.callers]; decide)
  have mine : caller.waits = true := by
    by_contra other
    exact waits (if_neg other)
  obtain ⟨index, inside, there⟩ := List.mem_iff_getElem.mp member
  have found : final.threads[index]? = some caller := by rw [List.getElem?_eq_getElem inside, there]
  -- the caller does not wait for an event that nobody will signal
  have waited : caller.waited = 1 := by
    rcases points caller member with queued | returned | ⟨waiting, empty⟩
    · have placed := kept.placed caller member
      rw [Invocation.Placed, queued] at placed
      exact Bool.noConfusion (mine.symm.trans placed)
    · rw [Invocation.waited, returned, Invocation.caller, if_pos mine]
    · have nobody := nobody_waited final.threads index caller kept.callers found mine
        (by rw [Invocation.waited, waiting])
      have beyond : 0 < weigh Invocation.past final.threads := by
        have less := weight_le_weigh Invocation.past final.threads caller member
        have past : caller.past = 1 := by rw [Invocation.past, waiting]
        omega
      have past := kept.claims.past
      have whole : iterations ≤ final.shared.called.length := by
        have all : List.range iterations ⊆ final.shared.called := by
          intro idx listed
          have claimed := kept.claims.claimed idx
          have reached := List.mem_range.mp listed
          rw [if_pos (by omega), quiet (fun thread => thread.calls idx) (fun _ => rfl) (fun _ => rfl) fun _ => rfl]
            at claimed
          exact List.count_pos_iff.mp (by omega)
        have longer := (List.subperm_of_subset List.nodup_range all).length_le
        rwa [List.length_range] at longer
      rw [if_pos (by omega)] at event
      omega
  have some_waited : 0 < weigh Invocation.waited final.threads := by
    have less := weight_le_weigh Invocation.waited final.threads caller member
    omega
  have gone : ∀ thread ∈ final.threads, thread.point = .returned ∨ thread = ⟨false, .queued⟩ := by
    intro thread listed
    have placed := kept.placed thread listed
    rcases points thread listed with queued | returned | ⟨waiting, -⟩
    · rw [Invocation.Placed, queued] at placed
      obtain ⟨flag, point⟩ := thread
      cases queued
      cases placed
      exact Or.inr rfl
    · exact Or.inl returned
    · rw [Invocation.Placed, waiting] at placed
      obtain ⟨place, within, here⟩ := List.mem_iff_getElem.mp listed
      have nobody := nobody_waited final.threads place thread kept.callers
        (by rw [List.getElem?_eq_getElem within, here]) placed (by rw [Invocation.waited, waiting])
      omega
  refine ⟨(waited_complete iterations thrCnt final.shared final.threads kept some_waited).1, gone, fun taken => ?_⟩
  have freed := kept.leaving.freed
  have left : weigh Invocation.left final.threads = final.threads.length := by
    have each : final.threads.map Invocation.left = final.threads.map fun _ => 1 := by
      refine List.map_congr_left fun thread listed => ?_
      rcases gone thread listed with returned | rfl
      · rw [Invocation.left, returned]
      · exact absurd rfl (taken _ listed)
    rw [weigh, each, List.map_const', List.sum_replicate_nat, Nat.mul_one]
  have counted := kept.leaving.thrCnt
  have length := kept.length
  rw [if_pos (by omega)] at freed
  omega

theorem run_short (iterations thrCnt : Nat) (some_iterations : 0 < iterations) (some_threads : 0 < thrCnt)
    (few : thrCnt < countLimit) (room : iterations + thrCnt < sizeLimit) (final : System Apply Invocation)
    (events : List (Nat × Unit)) (ran : Runs.run (step act) (created iterations thrCnt) events = some final) :
    events.length ≤ 2 * iterations + 8 * thrCnt := by
  have bound := run_length_le act (Kept iterations thrCnt) (fun _ => True)
    (fun da => 2 * (da.daIterations - da.daIndex)) Invocation.stepsLeft
    (fun action shared next threads index thread moved holds found acted =>
      act_kept iterations thrCnt shared next threads index thread moved action holds few room found acted)
    (fun action shared next threads index thread moved holds _ found acted =>
      move_less shared next thread moved (index_unwrapped iterations thrCnt shared threads index thread holds room
        found)
        (act_moves action shared next thread moved acted))
    (created iterations thrCnt) final events (fun _ _ => trivial) ran
    (created_kept iterations thrCnt some_iterations some_threads)
  have work : weigh Invocation.stepsLeft (created iterations thrCnt).threads = 7 + (thrCnt - 1) * 8 :=
    weigh_created Invocation.stepsLeft thrCnt
  have left : (created iterations thrCnt).shared.daIterations - (created iterations thrCnt).shared.daIndex =
    iterations :=
    rfl
  omega

theorem apply_returns (iterations thrCnt : Nat) (some_iterations : 0 < iterations) (some_threads : 0 < thrCnt)
    (few : thrCnt < countLimit) (room : iterations + thrCnt < sizeLimit) (final : System Apply Invocation)
    (events : List (Nat × Unit)) (ran : Runs.run (step act) (created iterations thrCnt) events = some final) :
    events.length ≤ 2 * iterations + 8 * thrCnt ∧ (Settled final → Returned iterations final) :=
  ⟨run_short iterations thrCnt some_iterations some_threads few room final events ran,
    settled_returned iterations thrCnt final
      (run_kept iterations thrCnt some_iterations some_threads few room final events ran)⟩

-- The caller makes both calls; its one continuation is still queued.
def alone : List (Nat × Unit) := List.replicate 10 (0, ())

theorem apply_returns_alone : ∃ final : System Apply Invocation,
    final = ⟨⟨3, 0, 2, 1, 0, [0, 1], 0⟩, [⟨true, .returned⟩, ⟨false, .queued⟩]⟩ ∧ Returned 2 final :=
  ⟨_, rfl, (apply_returns 2 2 (by decide) (by decide) (by decide) (by decide) _ alone (by decide +kernel)).2
    (by decide +kernel)⟩

end CultivationMotain.Dispatch.Applies

import Mathlib.Tactic.Common
import CultivationMotain.Library.LinkedChain
import CultivationMotain.Library.Threads
import CultivationMotain.Library.Weights

set_option autoImplicit false

namespace CultivationMotain.Dispatch.MPSC

open Threads Weights LinkedChain

abbrev Node := Nat

-- next is the link of every node. draining: a thread is in the calls of the
-- single consumer. pushed and popped are ghosts, the nodes in the order of the
-- exchanges of the tail and in the order they left.
structure Queue where
  head : Option Node
  tail : Option Node
  next : Node → Option Node
  draining : Bool
  pushed : List Node
  popped : List Node

def Queue.empty : Queue := ⟨none, none, fun _ => none, false, [], []⟩

-- Where a thread is. link and publish are the stores after the exchange of the
-- tail; the others are the consumer: waiting for the head, holding it, and the
-- steps of os_mpsc_pop_head.
inductive Point where
  | idle
  | link (prev first : Node)
  | publish (first : Node)
  | getHead
  | holding (head : Node)
  | loaded (head : Node) (n : Option Node)
  | detach (head : Node)
  | await (head : Node)
  | advance (head n : Node)
deriving DecidableEq, Repr

inductive Action where
  | push (first : Node) (rest : List Node)
  | drain
  | leave
  | resume
deriving DecidableEq, Repr

-- The links of a list of nodes that is not on the queue yet.
def chained (next : Node → Option Node) : Node → List Node → Node → Option Node
  | last, [] => Function.update next last none
  | node, after :: rest => Function.update (chained next after rest) node (some after)

def lastNode : Node → List Node → Node
  | last, [] => last
  | _, after :: rest => lastNode after rest

-- An object is on one list at a time.
def Fresh (queue : Queue) (nodes : List Node) : Prop :=
  nodes.Nodup ∧ ∀ node ∈ nodes, node ∉ queue.pushed.drop queue.popped.length

instance (queue : Queue) (nodes : List Node) : Decidable (Fresh queue nodes) :=
  inferInstanceAs (Decidable (nodes.Nodup ∧ ∀ node ∈ nodes, node ∉ queue.pushed.drop queue.popped.length))

def pushUpdateTailList (queue : Queue) (first : Node) (rest : List Node) : Queue × Point :=
  let prev := queue.tail
  let queue := { queue with
    next := chained queue.next first rest
    tail := some (lastNode first rest)
    pushed := queue.pushed ++ first :: rest }
  match prev with
  | some prev => (queue, .link prev first)
  | none => (queue, .publish first)

def pushUpdateHead (queue : Queue) (first : Node) : Queue := { queue with head := some first }

def storeHead (queue : Queue) (head : Node) (n : Option Node) : Queue × Point :=
  match n with
  | some n => ({ queue with head := some n, popped := queue.popped ++ [head] }, .holding n)
  | none => ({ queue with head := none }, .detach head)

def detachTail (queue : Queue) (head : Node) : Queue × Point :=
  if queue.tail = some head then
    ({ queue with tail := none, popped := queue.popped ++ [head], draining := false }, .idle)
  else (queue, .await head)

-- _dispatch_wait_until is a point that cannot be left until the pointer is set.
def act : Action → Queue → Point → Option (Queue × Point)
  | .push first rest, queue, .idle =>
      if Fresh queue (first :: rest) then some (pushUpdateTailList queue first rest) else none
  | .resume, queue, .link prev first =>
      some ({ queue with next := Function.update queue.next prev (some first) }, .idle)
  | .resume, queue, .publish first => some (pushUpdateHead queue first, .idle)
  | .drain, queue, .idle => if queue.draining then none else some ({ queue with draining := true }, .getHead)
  | .resume, queue, .getHead => queue.head.map fun head => (queue, .holding head)
  | .leave, queue, .holding _ => some ({ queue with draining := false }, .idle)
  | .resume, queue, .holding head => some (queue, .loaded head (queue.next head))
  | .resume, queue, .loaded head n => some (storeHead queue head n)
  | .resume, queue, .detach head => some (detachTail queue head)
  | .resume, queue, .await head => (queue.next head).map fun n => (queue, .advance head n)
  | .resume, queue, .advance head n => some (storeHead queue head (some n))
  | _, _, _ => none

def Point.linksFrom (node : Node) : Point → Nat
  | .link prev _ => if prev = node then 1 else 0
  | _ => 0

-- The thread that is about to set the head.
def Point.writesHead : Point → Nat
  | .publish _ | .detach _ | .await _ | .advance _ _ => 1
  | _ => 0

def Point.consumes : Point → Nat
  | .getHead | .holding _ | .loaded _ _ | .detach _ | .await _ | .advance _ _ => 1
  | _ => 0

def Stands (queue : Queue) (items : List Node) : Point → Prop
  | .idle | .getHead => True
  | .link prev first => queue.next prev = none ∧ Follows items prev first
  | .publish first => items.head? = some first ∧ queue.head = none
  | .holding head => queue.head = some head
  | .loaded head n => queue.head = some head ∧ (n = none ∨ queue.next head = n)
  | .detach head => items.head? = some head ∧ queue.head = none
  | .await head => items.head? = some head ∧ queue.head = none ∧ items.tail ≠ []
  | .advance head n => items.head? = some head ∧ queue.head = none ∧ queue.next head = some n

structure Queued (queue : Queue) (threads : List Point) (items : List Node) : Prop where
  history : queue.pushed = queue.popped ++ items
  distinct : items.Nodup
  tail : queue.tail = items.getLast?
  strung : Strung queue.next items
  headed : ∀ head, queue.head = some head → items.head? = some head
  stands : ∀ point ∈ threads, Stands queue items point
  linkers : ∀ node, weigh (Point.linksFrom node) threads ≤ 1 ∧
    (0 < weigh (Point.linksFrom node) threads ↔ Gap queue.next items node)
  writers : weigh Point.writesHead threads ≤ 1 ∧
    (0 < weigh Point.writesHead threads ↔ queue.head = none ∧ items ≠ [])
  consumers : weigh Point.consumes threads = if queue.draining then 1 else 0

theorem chained_other (next : Node → Option Node) (first : Node) (rest : List Node) (node : Node)
    (outside : node ∉ first :: rest) : chained next first rest node = next node := by
  induction rest generalizing first with
  | nil => exact Function.update_of_ne (List.ne_of_not_mem_cons outside) _ _
  | cons second rest ih =>
      rw [chained, Function.update_of_ne (List.ne_of_not_mem_cons outside)]
      exact ih second fun member => outside (List.mem_cons_of_mem _ member)

theorem chained_strung (next : Node → Option Node) (first : Node) (rest : List Node)
    (distinct : (first :: rest).Nodup) : Strung (chained next first rest) (first :: rest) := by
  induction rest generalizing first with
  | nil => exact Function.update_self _ _ _
  | cons second rest ih =>
      obtain ⟨outside, distinct⟩ := List.nodup_cons.mp distinct
      refine ⟨Or.inr (Function.update_self _ _ _), (strung_congr _ _ _ fun item member => ?_).mpr (ih second distinct)⟩
      exact Function.update_of_ne (ne_of_mem_of_not_mem member outside) _ _

theorem chained_gapless (next : Node → Option Node) (first : Node) (rest : List Node)
    (distinct : (first :: rest).Nodup) (node : Node) : ¬ Gap (chained next first rest) (first :: rest) node := by
  induction rest generalizing first with
  | nil => exact fun gap => List.not_mem_nil gap.2
  | cons second rest ih =>
      obtain ⟨outside, distinct⟩ := List.nodup_cons.mp distinct
      rintro ⟨missing, member⟩
      rw [List.dropLast_cons_cons] at member
      rcases List.mem_cons.mp member with rfl | later
      · rw [chained, Function.update_self] at missing
        cases missing
      · have different : node ≠ first := ne_of_mem_of_not_mem (List.dropLast_subset _ later) outside
        rw [chained, Function.update_of_ne different] at missing
        exact ih second distinct ⟨missing, later⟩

theorem last_node (first : Node) (rest : List Node) : (first :: rest).getLast? = some (lastNode first rest) := by
  induction rest generalizing first with
  | nil => rfl
  | cons second rest ih => rw [List.getLast?_cons_cons, lastNode, ih]

variable (queue : Queue) (threads : List Point) (items : List Node) (index : Nat)

theorem stands_push (first : Node) (rest : List Node) (point : Point)
    (other : ∀ node ∈ items, chained queue.next first rest node = queue.next node) (nonempty : items ≠ [])
    (headed : ∀ head, queue.head = some head → items.head? = some head) (stands : Stands queue items point) :
    Stands (pushUpdateTailList queue first rest).1 (items ++ first :: rest) point := by
  have pushed : (pushUpdateTailList queue first rest).1 = { queue with
      next := chained queue.next first rest
      tail := some (lastNode first rest)
      pushed := queue.pushed ++ first :: rest } := by
    rw [pushUpdateTailList]
    cases queue.tail <;> rfl
  have front (node : Node) (found : items.head? = some node) : (items ++ first :: rest).head? = some node := by
    rw [List.head?_append, found]
    rfl
  have inside (node : Node) (found : items.head? = some node) : node ∈ items := List.mem_of_head? found
  rw [pushed]
  cases point with
  | idle | getHead => trivial
  | link prev after =>
      obtain ⟨missing, follows⟩ := stands
      exact ⟨(other prev (follows_mem _ _ _ follows).1).trans missing, follows_append _ _ _ _ follows⟩
  | publish after => exact ⟨front after stands.1, stands.2⟩
  | holding head => exact stands
  | loaded head n =>
      refine ⟨stands.1, stands.2.imp_right fun link => ?_⟩
      exact (other head (inside head (headed head stands.1))).trans link
  | detach head => exact ⟨front head stands.1, stands.2⟩
  | await head =>
      refine ⟨front head stands.1, stands.2.1, ?_⟩
      rw [List.tail_append_of_ne_nil nonempty]
      exact List.append_ne_nil_of_right_ne_nil _ (List.cons_ne_nil _ _)
  | advance head n => exact ⟨front head stands.1, stands.2.1, (other head (inside head stands.1)).trans stands.2.2⟩

theorem stands_nothing (next : Queue) (point : Point) (headless : queue.head = none)
    (stands : Stands queue [] point) : Stands next items point := by
  cases point with
  | idle | getHead => trivial
  | link prev after => exact (List.not_mem_nil (follows_mem _ _ _ stands.2).1).elim
  | publish after => exact (Option.some_ne_none _ stands.1.symm).elim
  | holding head => exact (Option.some_ne_none _ (stands.symm.trans headless)).elim
  | loaded head n => exact (Option.some_ne_none _ (stands.1.symm.trans headless)).elim
  | detach head => exact (Option.some_ne_none _ stands.1.symm).elim
  | await head => exact (Option.some_ne_none _ stands.1.symm).elim
  | advance head n => exact (Option.some_ne_none _ stands.1.symm).elim

theorem push_queued (first : Node) (rest : List Node) (holds : Queued queue threads items)
    (found : threads[index]? = some .idle) (fresh : Fresh queue (first :: rest)) :
    Queued (pushUpdateTailList queue first rest).1 (threads.set index (pushUpdateTailList queue first rest).2)
      (items ++ first :: rest) := by
  obtain ⟨history, distinct, tail, strung, headed, stands, linkers, writers, consumers⟩ := holds
  obtain ⟨fresh, outside⟩ := fresh
  rw [history, List.drop_left] at outside
  have other (node : Node) (inside : node ∈ items) : chained queue.next first rest node = queue.next node :=
    chained_other _ _ _ _ fun member => outside node member inside
  have kept : Strung (chained queue.next first rest) items := (strung_congr _ _ _ other).mpr strung
  have joined : Strung (chained queue.next first rest) (items ++ first :: rest) :=
    strung_append _ _ _ kept (chained_strung _ _ _ fresh)
  have separate : (items ++ first :: rest).Nodup :=
    List.nodup_append.mpr ⟨distinct, fresh, fun node inside other member same =>
      outside other member (same ▸ inside)⟩
  have ended : some (lastNode first rest) = (items ++ first :: rest).getLast? := by
    rw [List.getLast?_append, last_node]
    rfl
  have links (node : Node) (moved : Point) := weigh_set (Point.linksFrom node) threads index .idle moved found
  have writes (moved : Point) := weigh_set Point.writesHead threads index .idle moved found
  have consumes (moved : Point) := weigh_set Point.consumes threads index .idle moved found
  rw [pushUpdateTailList]
  cases previous : queue.tail with
  | none =>
      cases List.getLast?_eq_none_iff.mp (tail.symm.trans previous)
      have headless : queue.head = none :=
        Option.eq_none_iff_forall_ne_some.mpr fun head set => Option.some_ne_none _ (headed head set).symm
      refine ⟨?_, separate, ended, joined, ?_, ?_, fun node => ?_, ?_, ?_⟩
      · rw [history, List.append_assoc]
      · exact fun head set => (Option.some_ne_none head (set.symm.trans headless)).elim
      · refine forall_mem_set _ threads index _ (fun point other => ?_) ⟨rfl, headless⟩
        exact stands_nothing queue _ _ point headless (forall_mem_erase _ threads index stands point other)
      · have old := linkers node
        have none : weigh (Point.linksFrom node) (threads.set index (.publish first)) =
          weigh (Point.linksFrom node) threads := links node (.publish first)
        have nothing : ¬ Gap queue.next [] node := fun gap => List.not_mem_nil gap.2
        have full := chained_gapless queue.next first rest fresh node
        have idle : weigh (Point.linksFrom node) (threads.set index (.publish first)) = 0 := by
          have := old.2.not.mpr nothing
          omega
        rw [idle]
        exact ⟨by omega, ⟨fun impossible => (Nat.lt_irrefl 0 impossible).elim, fun gap => (full gap).elim⟩⟩
      · have old := writers.2.not.mpr fun both => both.2 rfl
        have written : weigh Point.writesHead (threads.set index (.publish first)) =
          weigh Point.writesHead threads + 1 := writes (.publish first)
        have one : weigh Point.writesHead (threads.set index (.publish first)) = 1 := by omega
        rw [one]
        exact ⟨Nat.le_refl 1, ⟨fun _ => ⟨headless, List.cons_ne_nil _ _⟩, fun _ => Nat.one_pos⟩⟩
      · exact (consumes (.publish first)).trans consumers
  | some prev =>
      have nonempty : items ≠ [] := by
        rintro rfl
        exact Option.some_ne_none prev (previous.symm.trans tail)
      have last : items.getLast? = some prev := tail.symm.trans previous
      have missing : queue.next prev = none := strung_last queue.next items prev strung last
      have inside : prev ∈ items := List.mem_of_getLast? last
      refine ⟨?_, separate, ended, joined, ?_, ?_, fun node => ?_, ?_, ?_⟩
      · rw [history, List.append_assoc]
      · intro head set
        rw [List.head?_append, headed head set]
        rfl
      · refine forall_mem_set _ threads index _ (fun point elsewhere => ?_) ⟨(other prev inside).trans missing, ?_⟩
        · have moved := stands_push queue items first rest point other nonempty headed
            (forall_mem_erase _ threads index stands point elsewhere)
          rwa [pushUpdateTailList, previous] at moved
        · obtain ⟨init, rfl⟩ := List.getLast?_eq_some_iff.mp last
          exact ⟨init, rest, by simp⟩
      · have old := linkers node
        have moved : weigh (Point.linksFrom node) (threads.set index (.link prev first)) =
          weigh (Point.linksFrom node) threads + if prev = node then 1 else 0 := links node (.link prev first)
        rw [gap_append _ items _ prev last (List.cons_ne_nil _ _) ((other prev inside).trans missing)
          (chained_gapless queue.next first rest fresh), gap_congr queue.next _ items other]
        by_cases same : prev = node
        · subst same
          have none := old.2.not.mpr (not_gap_last queue.next items prev distinct last)
          rw [if_pos rfl] at moved
          have one : weigh (Point.linksFrom prev) (threads.set index (.link prev first)) = 1 := by omega
          rw [one]
          exact ⟨Nat.le_refl 1, iff_of_true Nat.one_pos (Or.inl rfl)⟩
        · rw [if_neg same] at moved
          have unchanged : weigh (Point.linksFrom node) (threads.set index (.link prev first)) =
            weigh (Point.linksFrom node) threads := by omega
          rw [unchanged, or_iff_right (Ne.symm same)]
          exact old
      · have unchanged : weigh Point.writesHead (threads.set index (.link prev first)) =
          weigh Point.writesHead threads := writes (.link prev first)
        rw [unchanged, writers.2]
        exact ⟨writers.1, and_congr_right fun _ => iff_of_true nonempty (List.append_ne_nil_of_left_ne_nil nonempty _)⟩
      · exact (consumes (.link prev first)).trans consumers

theorem stands_draining (drains : Bool) (point : Point) (stands : Stands queue items point) :
    Stands { queue with draining := drains } items point := by
  cases point <;> exact stands

-- A move that writes nothing; the thread may take the part of the consumer with
-- it, or give it back.
theorem move_queued (point moved : Point) (drains : Bool) (holds : Queued queue threads items)
    (found : threads[index]? = some point) (links : ∀ node, moved.linksFrom node = point.linksFrom node)
    (writes : moved.writesHead = point.writesHead)
    (consumes : moved.consumes + (if queue.draining then 1 else 0) = point.consumes + if drains then 1 else 0)
    (stands : Stands queue items moved) : Queued { queue with draining := drains } (threads.set index moved) items := by
  have linked (node : Node) := weigh_set (Point.linksFrom node) threads index point moved found
  have written := weigh_set Point.writesHead threads index point moved found
  have consumed := weigh_set Point.consumes threads index point moved found
  have sameLinks (node : Node) : weigh (Point.linksFrom node) (threads.set index moved) =
      weigh (Point.linksFrom node) threads := by
    have moves := linked node
    rw [links node] at moves
    omega
  have sameWrites : weigh Point.writesHead (threads.set index moved) = weigh Point.writesHead threads := by omega
  refine ⟨holds.history, holds.distinct, holds.tail, holds.strung, holds.headed, ?_, fun node => ?_, ?_, ?_⟩
  · refine forall_mem_set _ threads index moved (fun other elsewhere => ?_)
      (stands_draining queue items drains _ stands)
    exact stands_draining queue items drains other (forall_mem_erase _ threads index holds.stands other elsewhere)
  · rw [sameLinks node]
    exact holds.linkers node
  · rw [sameWrites]
    exact holds.writers
  · have consumers := holds.consumers
    change weigh Point.consumes (threads.set index moved) = if drains then 1 else 0
    omega

theorem link_queued (prev first : Node) (holds : Queued queue threads items)
    (found : threads[index]? = some (.link prev first)) :
    Queued { queue with next := Function.update queue.next prev (some first) } (threads.set index .idle) items := by
  obtain ⟨history, distinct, tail, strung, headed, stands, linkers, writers, consumers⟩ := holds
  obtain ⟨missing, follows⟩ := stands _ (List.mem_of_getElem? found)
  have erased := weigh_erase (Point.linksFrom prev) threads index _ found
  have alone : weigh (Point.linksFrom prev) (threads.eraseIdx index) = 0 := by
    have most := (linkers prev).1
    have one : (Point.link prev first).linksFrom prev = 1 := if_pos rfl
    omega
  refine ⟨history, distinct, tail, strung_link _ _ _ _ distinct strung follows, headed, ?_, fun node => ?_, ?_, ?_⟩
  · refine forall_mem_set _ threads index _ (fun point other => ?_) trivial
    have before := forall_mem_erase _ threads index stands point other
    have silent := (weigh_eq_zero_iff _ _).mp alone point other
    cases point with
    | idle | getHead => trivial
    | link node after =>
        have different : node ≠ prev := by
          intro same
          rw [Point.linksFrom, if_pos same] at silent
          cases silent
        exact ⟨(Function.update_of_ne different _ _).trans before.1, before.2⟩
    | publish _ => exact before
    | holding _ => exact before
    | loaded head n =>
        refine ⟨before.1, ?_⟩
        by_cases same : head = prev
        · rcases before.2 with absent | link
          · exact Or.inl absent
          · exact Or.inl (link.symm.trans (same ▸ missing))
        · exact before.2.imp_right (Function.update_of_ne same _ _).trans
    | detach _ => exact before
    | await _ => exact before
    | advance head n =>
        have different : head ≠ prev := by
          rintro rfl
          exact Option.some_ne_none n (before.2.2.symm.trans missing)
        exact ⟨before.1, before.2.1, (Function.update_of_ne different _ _).trans before.2.2⟩
  · have moved : weigh (Point.linksFrom node) (threads.set index .idle) + (if prev = node then 1 else 0) =
        weigh (Point.linksFrom node) threads := weigh_set (Point.linksFrom node) threads index _ .idle found
    have old := linkers node
    rw [gap_link]
    by_cases same : prev = node
    · rw [if_pos same] at moved
      have none : weigh (Point.linksFrom node) (threads.set index .idle) = 0 := by omega
      rw [none]
      exact ⟨Nat.zero_le 1, iff_of_false (Nat.lt_irrefl 0) fun gap => gap.1 same.symm⟩
    · rw [if_neg same] at moved
      rw [Nat.add_zero] at moved
      rw [and_iff_right (Ne.symm same), moved]
      exact old
  · have same : weigh Point.writesHead (threads.set index .idle) = weigh Point.writesHead threads :=
      weigh_set Point.writesHead threads index _ .idle found
    rw [same]
    exact writers
  · exact (weigh_set Point.consumes threads index _ .idle found).trans consumers

theorem publish_queued (first : Node) (holds : Queued queue threads items)
    (found : threads[index]? = some (.publish first)) :
    Queued (pushUpdateHead queue first) (threads.set index .idle) items := by
  obtain ⟨history, distinct, tail, strung, headed, stands, linkers, writers, consumers⟩ := holds
  obtain ⟨front, headless⟩ := stands _ (List.mem_of_getElem? found)
  have written : weigh Point.writesHead (threads.set index .idle) + 1 = weigh Point.writesHead threads :=
    weigh_set Point.writesHead threads index _ .idle found
  have erased : weigh Point.writesHead (threads.eraseIdx index) + 1 = weigh Point.writesHead threads :=
    weigh_erase Point.writesHead threads index _ found
  have alone : weigh Point.writesHead (threads.eraseIdx index) = 0 := by omega
  refine ⟨history, distinct, tail, strung, ?_, ?_, fun node => ?_, ?_, ?_⟩
  · exact fun head set => Option.some.inj set ▸ front
  · refine forall_mem_set _ threads index _ (fun point other => ?_) trivial
    have before := forall_mem_erase _ threads index stands point other
    have silent := (weigh_eq_zero_iff _ _).mp alone point other
    cases point with
    | idle | getHead => trivial
    | link prev after => exact before
    | publish _ | detach _ | await _ | advance _ _ => cases silent
    | holding head => exact (Option.some_ne_none head (before.symm.trans headless)).elim
    | loaded head n => exact (Option.some_ne_none head (before.1.symm.trans headless)).elim
  · have same : weigh (Point.linksFrom node) (threads.set index .idle) = weigh (Point.linksFrom node) threads :=
      weigh_set (Point.linksFrom node) threads index _ .idle found
    rw [same]
    exact linkers node
  · have none : weigh Point.writesHead (threads.set index .idle) = 0 := by omega
    rw [none]
    exact ⟨Nat.zero_le 1, iff_of_false (Nat.lt_irrefl 0) fun both => Option.some_ne_none first both.1⟩
  · exact (weigh_set Point.consumes threads index _ .idle found).trans consumers

theorem single_consumer (point : Point) (consumers : weigh Point.consumes threads = if queue.draining then 1 else 0)
    (found : threads[index]? = some point) (consumes : point.consumes = 1) :
    weigh Point.consumes (threads.eraseIdx index) = 0 := by
  have consumed := weigh_erase Point.consumes threads index point found
  by_cases draining : queue.draining = true
  · rw [if_pos draining] at consumers
    omega
  · rw [if_neg draining] at consumers
    omega

-- The head leaves: the consumer sets the head to the node behind it.
theorem pop_queued (point : Point) (head n : Node) (holds : Queued queue threads items)
    (found : threads[index]? = some point) (front : items.head? = some head) (link : queue.next head = some n)
    (links : ∀ node, point.linksFrom node = 0) (consumes : point.consumes = 1)
    (alone : weigh Point.writesHead (threads.eraseIdx index) = 0) :
    Queued { queue with head := some n, popped := queue.popped ++ [head] } (threads.set index (.holding n))
      items.tail := by
  obtain ⟨history, distinct, tail, strung, headed, stands, linkers, writers, consumers⟩ := holds
  obtain ⟨rest, rfl⟩ := List.head?_eq_some_iff.mp front
  obtain ⟨later, rfl⟩ := strung_head queue.next head n rest strung link
  have single := single_consumer queue threads index point consumers found consumes
  refine ⟨?_, (List.nodup_cons.mp distinct).2, tail.trans List.getLast?_cons_cons, strung_cons _ _ _ strung, ?_, ?_,
    fun node => ?_, ?_, ?_⟩
  · rw [history, List.append_assoc]
    rfl
  · exact fun other set => set
  · refine forall_mem_set _ threads index _ (fun other elsewhere => ?_) rfl
    have before := forall_mem_erase _ threads index stands other elsewhere
    have silent := (weigh_eq_zero_iff _ _).mp alone other elsewhere
    have outside := (weigh_eq_zero_iff _ _).mp single other elsewhere
    cases other with
    | idle => trivial
    | link prev after =>
        refine ⟨before.1, ((follows_cons_cons _ _ _ _ _).mp before.2).resolve_left fun here => ?_⟩
        exact Option.some_ne_none n (link.symm.trans (here.1 ▸ before.1))
    | publish _ => cases silent
    | getHead | holding _ | loaded _ _ | detach _ | await _ | advance _ _ => cases outside
  · have same : weigh (Point.linksFrom node) (threads.set index (.holding n)) =
        weigh (Point.linksFrom node) threads := by
      have moved := weigh_set (Point.linksFrom node) threads index point (.holding n) found
      rw [links node] at moved
      exact moved
    have written : queue.next head ≠ none := fun absent => Option.some_ne_none n (link.symm.trans absent)
    rw [same]
    exact ⟨(linkers node).1, (linkers node).2.trans (gap_cons queue.next head n later distinct node written)⟩
  · have none : weigh Point.writesHead (threads.set index (.holding n)) = 0 := by
      have moved : weigh Point.writesHead (threads.set index (.holding n)) + point.writesHead =
        weigh Point.writesHead threads := weigh_set Point.writesHead threads index point (.holding n) found
      have erased := weigh_erase Point.writesHead threads index point found
      omega
    rw [none]
    exact ⟨Nat.zero_le 1, iff_of_false (Nat.lt_irrefl 0) fun both => Option.some_ne_none n both.1⟩
  · have moved : weigh Point.consumes (threads.set index (.holding n)) + point.consumes =
      weigh Point.consumes threads + 1 := weigh_set Point.consumes threads index point (.holding n) found
    rw [consumes] at moved
    exact (Nat.add_right_cancel moved).trans consumers

-- The consumer found no link behind the head and clears the head.
theorem clear_queued (head : Node) (holds : Queued queue threads items)
    (found : threads[index]? = some (.loaded head none)) :
    Queued { queue with head := none } (threads.set index (.detach head)) items := by
  obtain ⟨history, distinct, tail, strung, headed, stands, linkers, writers, consumers⟩ := holds
  have set := (stands _ (List.mem_of_getElem? found)).1
  have front := headed head set
  have nonempty : items ≠ [] := by
    rintro rfl
    exact Option.some_ne_none head front.symm
  have single := single_consumer queue threads index _ consumers found rfl
  refine ⟨history, distinct, tail, strung, ?_, ?_, fun node => ?_, ?_, ?_⟩
  · exact fun other impossible => (Option.some_ne_none other impossible.symm).elim
  · refine forall_mem_set _ threads index _ (fun other elsewhere => ?_) ⟨front, rfl⟩
    have before := forall_mem_erase _ threads index stands other elsewhere
    have outside := (weigh_eq_zero_iff _ _).mp single other elsewhere
    cases other with
    | idle => trivial
    | link _ _ => exact before
    | publish first => exact ⟨before.1, rfl⟩
    | getHead | holding _ | loaded _ _ | detach _ | await _ | advance _ _ => cases outside
  · have same : weigh (Point.linksFrom node) (threads.set index (.detach head)) =
      weigh (Point.linksFrom node) threads := weigh_set (Point.linksFrom node) threads index _ (.detach head) found
    rw [same]
    exact linkers node
  · have moved : weigh Point.writesHead (threads.set index (.detach head)) = weigh Point.writesHead threads + 1 :=
      weigh_set Point.writesHead threads index _ (.detach head) found
    have old := writers.2.not.mpr fun both => Option.some_ne_none head (set.symm.trans both.1)
    have one : weigh Point.writesHead (threads.set index (.detach head)) = 1 := by omega
    rw [one]
    exact ⟨Nat.le_refl 1, iff_of_true Nat.one_pos ⟨rfl, nonempty⟩⟩
  · have moved : weigh Point.consumes (threads.set index (.detach head)) + 1 = weigh Point.consumes threads + 1 :=
      weigh_set Point.consumes threads index _ (.detach head) found
    exact (Nat.add_right_cancel moved).trans consumers

theorem detach_queued (head : Node) (holds : Queued queue threads items)
    (found : threads[index]? = some (.detach head)) (last : queue.tail = some head) :
    Queued { queue with tail := none, popped := queue.popped ++ [head], draining := false }
      (threads.set index .idle) [] := by
  obtain ⟨history, distinct, tail, strung, headed, stands, linkers, writers, consumers⟩ := holds
  obtain ⟨front, headless⟩ := stands _ (List.mem_of_getElem? found)
  obtain ⟨rest, rfl⟩ := List.head?_eq_some_iff.mp front
  have alone : rest = [] := by
    cases rest with
    | nil => rfl
    | cons second rest =>
        rw [List.getLast?_cons_cons] at tail
        exact ((List.nodup_cons.mp distinct).1 (List.mem_of_getLast? (tail.symm.trans last))).elim
  cases alone
  have single := single_consumer queue threads index _ consumers found rfl
  have written : weigh Point.writesHead (threads.set index .idle) + 1 = weigh Point.writesHead threads :=
    weigh_set Point.writesHead threads index _ .idle found
  have erased : weigh Point.writesHead (threads.eraseIdx index) + 1 = weigh Point.writesHead threads :=
    weigh_erase Point.writesHead threads index _ found
  have silence : weigh Point.writesHead (threads.eraseIdx index) = 0 := by omega
  refine ⟨history.trans (List.append_nil _).symm, List.nodup_nil, rfl, trivial, ?_, ?_, fun node => ?_, ?_, ?_⟩
  · exact fun other set => (Option.some_ne_none other (set.symm.trans headless)).elim
  · refine forall_mem_set _ threads index _ (fun other elsewhere => ?_) trivial
    have before := forall_mem_erase _ threads index stands other elsewhere
    have silent := (weigh_eq_zero_iff _ _).mp silence other elsewhere
    have outside := (weigh_eq_zero_iff _ _).mp single other elsewhere
    cases other with
    | idle => trivial
    | link prev after => exact (not_follows_one head prev after before.2).elim
    | publish _ => cases silent
    | getHead | holding _ | loaded _ _ | detach _ | await _ | advance _ _ => cases outside
  · have same : weigh (Point.linksFrom node) (threads.set index .idle) = weigh (Point.linksFrom node) threads :=
      weigh_set (Point.linksFrom node) threads index _ .idle found
    have nothing (nodes : List Node) (short : nodes.dropLast = []) : ¬ Gap queue.next nodes node := fun gap =>
      List.not_mem_nil (short ▸ gap.2)
    rw [same]
    exact ⟨(linkers node).1, (linkers node).2.trans (iff_of_false (nothing [head] rfl) (nothing [] rfl))⟩
  · have none : weigh Point.writesHead (threads.set index .idle) = 0 := by omega
    rw [none]
    exact ⟨Nat.zero_le 1, iff_of_false (Nat.lt_irrefl 0) fun both => both.2 rfl⟩
  · have moved : weigh Point.consumes (threads.set index .idle) + 1 = weigh Point.consumes threads :=
      weigh_set Point.consumes threads index _ .idle found
    have erased : weigh Point.consumes (threads.eraseIdx index) + 1 = weigh Point.consumes threads :=
      weigh_erase Point.consumes threads index _ found
    rw [if_neg Bool.false_ne_true]
    omega

theorem store_queued (head : Node) (n : Option Node) (holds : Queued queue threads items)
    (found : threads[index]? = some (.loaded head n)) :
    ∃ items, Queued (storeHead queue head n).1 (threads.set index (storeHead queue head n).2) items := by
  obtain ⟨set, link⟩ := holds.stands _ (List.mem_of_getElem? found)
  cases n with
  | none => exact ⟨items, clear_queued queue threads items index head holds found⟩
  | some n =>
      have silence : weigh Point.writesHead threads = 0 := by
        have old := holds.writers.2.not.mpr fun both => Option.some_ne_none head (set.symm.trans both.1)
        omega
      have erased := weigh_erase Point.writesHead threads index _ found
      refine ⟨items.tail, pop_queued queue threads items index _ head n holds found (holds.headed head set) ?_
        (fun _ => rfl) rfl (by omega)⟩
      exact link.resolve_left (Option.some_ne_none n)

theorem act_queued (action : Action) (next : Queue) (point moved : Point) (holds : Queued queue threads items)
    (found : threads[index]? = some point) (acted : act action queue point = some (next, moved)) :
    ∃ items, Queued next (threads.set index moved) items := by
  have stands := holds.stands _ (List.mem_of_getElem? found)
  cases action with
  | push first rest =>
      cases point with
      | idle =>
          obtain ⟨fresh, pushed⟩ := Option.ite_none_right_eq_some.mp acted
          have holds := push_queued queue threads items index first rest holds found fresh
          rw [Option.some.inj pushed] at holds
          exact ⟨_, holds⟩
      | link _ _ | publish _ | getHead | holding _ | loaded _ _ | detach _ | await _ | advance _ _ => cases acted
  | drain =>
      cases point with
      | idle =>
          obtain ⟨free, drains⟩ := Option.ite_none_left_eq_some.mp acted
          cases drains
          refine ⟨items, move_queued queue threads items index .idle .getHead true holds found (fun _ => rfl) rfl ?_
            trivial⟩
          rw [if_neg free]
          rfl
      | link _ _ | publish _ | getHead | holding _ | loaded _ _ | detach _ | await _ | advance _ _ => cases acted
  | leave =>
      cases point with
      | holding head =>
          cases acted
          have consumers := holds.consumers
          have consumed : weigh Point.consumes (threads.eraseIdx index) + 1 = weigh Point.consumes threads :=
            weigh_erase Point.consumes threads index _ found
          refine ⟨items, move_queued queue threads items index _ .idle false holds found (fun _ => rfl) rfl ?_ trivial⟩
          by_cases draining : queue.draining = true
          · rw [if_pos draining]
            rfl
          · rw [if_neg draining] at consumers
            omega
      | idle | link _ _ | publish _ | getHead | loaded _ _ | detach _ | await _ | advance _ _ => cases acted
  | resume =>
      cases point with
      | idle => cases acted
      | link prev first =>
          cases acted
          exact ⟨items, link_queued queue threads items index prev first holds found⟩
      | publish first =>
          cases acted
          exact ⟨items, publish_queued queue threads items index first holds found⟩
      | getHead =>
          obtain ⟨head, set, rest⟩ := Option.map_eq_some_iff.mp acted
          cases rest
          exact ⟨items, move_queued queue threads items index .getHead _ queue.draining holds found (fun _ => rfl) rfl
            rfl set⟩
      | holding head =>
          cases acted
          exact ⟨items, move_queued queue threads items index _ _ queue.draining holds found (fun _ => rfl) rfl rfl
            ⟨stands, Or.inr rfl⟩⟩
      | loaded head n =>
          have stored := store_queued queue threads items index head n holds found
          rwa [Option.some.inj acted] at stored
      | detach head =>
          have detached := Option.some.inj acted
          unfold detachTail at detached
          by_cases last : queue.tail = some head
          · rw [if_pos last] at detached
            cases detached
            exact ⟨[], detach_queued queue threads items index head holds found last⟩
          · rw [if_neg last] at detached
            cases detached
            refine ⟨items, move_queued queue threads items index _ _ queue.draining holds found (fun _ => rfl) rfl rfl
              ⟨stands.1, stands.2, ?_⟩⟩
            obtain ⟨rest, rfl⟩ := List.head?_eq_some_iff.mp stands.1
            rintro alone
            have alone : rest = [] := alone
            exact last (holds.tail.trans (by rw [alone]; rfl))
      | await head =>
          obtain ⟨n, link, rest⟩ := Option.map_eq_some_iff.mp acted
          cases rest
          exact ⟨items, move_queued queue threads items index _ _ queue.draining holds found (fun _ => rfl) rfl rfl
            ⟨stands.1, stands.2.1, link⟩⟩
      | advance head n =>
          cases acted
          have most := holds.writers.1
          have erased : weigh Point.writesHead (threads.eraseIdx index) + 1 = weigh Point.writesHead threads :=
            weigh_erase Point.writesHead threads index _ found
          exact ⟨items.tail, pop_queued queue threads items index _ head n holds found stands.1 stands.2.2
            (fun _ => rfl) rfl (by omega)⟩

def created (count : Nat) : System Queue Point := ⟨.empty, List.replicate count .idle⟩

theorem run_queued (count : Nat) (final : System Queue Point) (events : List (Nat × Action))
    (ran : Runs.run (step act) (created count) events = some final) :
    ∃ items, Queued final.shared final.threads items := by
  refine run_invariant act (fun queue threads => ∃ items, Queued queue threads items)
    (fun action queue next threads index point moved holds found acted => ?_) (created count) final events ran ⟨[], ?_⟩
  · obtain ⟨items, holds⟩ := holds
    exact act_queued queue threads items index action next point moved holds found acted
  · have nobody (weight : Point → Nat) (none : weight .idle = 0) :
        weigh weight (created count).threads = 0 := by rw [created, weigh_replicate, none, Nat.mul_zero]
    refine ⟨rfl, List.nodup_nil, rfl, trivial, fun head set => (Option.some_ne_none head set.symm).elim, ?_,
      fun node => ?_, ?_, nobody _ rfl⟩
    · intro point member
      rw [List.eq_of_mem_replicate member]
      trivial
    · rw [nobody (Point.linksFrom node) rfl]
      exact ⟨Nat.zero_le 1, iff_of_false (Nat.lt_irrefl 0) fun gap => List.not_mem_nil gap.2⟩
    · rw [nobody Point.writesHead rfl]
      exact ⟨Nat.zero_le 1, iff_of_false (Nat.lt_irrefl 0) fun both => both.2 rfl⟩

-- Whether the thread still has a store to make that the list in memory lacks.
def Point.storing : Point → Bool
  | .link _ _ | .publish _ | .detach _ | .await _ | .advance _ _ => true
  | .idle | .getHead | .holding _ | .loaded _ _ => false

-- The list in memory, read from the head by the links.
structure Represents (queue : Queue) (items : List Node) : Prop where
  head : queue.head = items.head?
  tail : queue.tail = items.getLast?
  links : items.IsChain fun before after => queue.next before = some after
  ended : ∀ last, items.getLast? = some last → queue.next last = none

structure FirstInFirstOut (final : System Queue Point) : Prop where
  order : final.shared.popped <+: final.shared.pushed
  once : (final.shared.pushed.drop final.shared.popped.length).Nodup
  memory : (∀ point ∈ final.threads, point.storing = false) →
    Represents final.shared (final.shared.pushed.drop final.shared.popped.length)

theorem storing_weights (point : Point) (stored : point.storing = false) :
    point.writesHead = 0 ∧ ∀ node, point.linksFrom node = 0 := by
  cases point with
  | idle | getHead | holding _ | loaded _ _ => exact ⟨rfl, fun _ => rfl⟩
  | link _ _ | publish _ | detach _ | await _ | advance _ _ => cases stored

theorem represents_queued (holds : Queued queue threads items) (stored : ∀ point ∈ threads, point.storing = false) :
    Represents queue items := by
  have noWrite : weigh Point.writesHead threads = 0 :=
    (weigh_eq_zero_iff _ _).mpr fun point member => (storing_weights point (stored point member)).1
  have noLink (node : Node) : weigh (Point.linksFrom node) threads = 0 :=
    (weigh_eq_zero_iff _ _).mpr fun point member => (storing_weights point (stored point member)).2 node
  have full (node : Node) : ¬ Gap queue.next items node := by
    rw [← (holds.linkers node).2, noLink node]
    exact Nat.lt_irrefl 0
  refine ⟨?_, holds.tail, chain_of_no_gap queue.next items holds.strung full, fun last found =>
    strung_last queue.next items last holds.strung found⟩
  cases set : queue.head with
  | some head => exact (holds.headed head set).symm
  | none =>
      have empty : items = [] := by
        by_contra nonempty
        have written := holds.writers.2.mpr ⟨set, nonempty⟩
        omega
      rw [empty]
      rfl

theorem queued_items (holds : Queued queue threads items) : queue.pushed.drop queue.popped.length = items := by
  rw [holds.history, List.drop_left]

theorem fifo (count : Nat) (final : System Queue Point) (events : List (Nat × Action))
    (ran : Runs.run (step act) (created count) events = some final) : FirstInFirstOut final := by
  obtain ⟨items, holds⟩ := run_queued count final events ran
  have left := queued_items final.shared final.threads items holds
  refine ⟨⟨items, holds.history.symm⟩, ?_, fun stored => ?_⟩
  · rw [left]
    exact holds.distinct
  · rw [left]
    exact represents_queued final.shared final.threads items holds stored

theorem fifo_overtaken : ∃ final, Runs.run (step act) (created 3)
    [(0, .push 7 []), (1, .push 8 [9]), (2, .drain), (0, .resume), (2, .resume), (2, .resume), (2, .resume),
      (2, .resume), (1, .resume), (2, .resume), (2, .resume)] = some final ∧
    final.shared.popped = [7] ∧ FirstInFirstOut final := by
  have ran : (Runs.run (step act) (created 3)
    [(0, .push 7 []), (1, .push 8 [9]), (2, .drain), (0, .resume), (2, .resume), (2, .resume), (2, .resume),
      (2, .resume), (1, .resume), (2, .resume), (2, .resume)]).isSome = true := by decide
  exact ⟨_, (Option.some_get ran).symm, rfl, fifo 3 _ _ (Option.some_get ran).symm⟩

-- A consumer that waits for a pointer waits for a store that another thread is
-- about to make, or for the next push.
def Rests (final : System Queue Point) : Prop :=
  ∀ point ∈ final.threads, point = .idle ∨ point = .getHead ∧ final.shared.pushed = final.shared.popped

theorem stuck_rests (final : System Queue Point) (holds : Queued final.shared final.threads items)
    (stuck : ∀ index, step act final (index, .resume) = none) : Rests final := by
  have blocked (point : Point) (member : point ∈ final.threads) : act .resume final.shared point = none := by
    obtain ⟨index, inside, found⟩ := List.mem_iff_getElem.mp member
    have here := stuck index
    rwa [step, List.getElem?_eq_getElem inside, found, Option.bind_some, Option.map_eq_none_iff] at here
  have noLink (node : Node) : weigh (Point.linksFrom node) final.threads = 0 := by
    refine (weigh_eq_zero_iff _ _).mpr fun point member => ?_
    cases point with
    | link prev first => exact (Option.some_ne_none _ (blocked _ member)).elim
    | idle | publish _ | getHead | holding _ | loaded _ _ | detach _ | await _ | advance _ _ => rfl
  have full (node : Node) : ¬ Gap final.shared.next items node := by
    rw [← (holds.linkers node).2, noLink node]
    exact Nat.lt_irrefl 0
  have noAwait (head : Node) (member : .await head ∈ final.threads) : False := by
    obtain ⟨front, -, long⟩ := holds.stands _ member
    obtain ⟨rest, rfl⟩ := List.head?_eq_some_iff.mp front
    obtain ⟨second, later, rfl⟩ := List.exists_cons_of_ne_nil long
    refine full head ⟨Option.map_eq_none_iff.mp (blocked _ member), ?_⟩
    rw [List.dropLast_cons_cons]
    exact List.mem_cons_self
  have noWrite : weigh Point.writesHead final.threads = 0 := by
    refine (weigh_eq_zero_iff _ _).mpr fun point member => ?_
    cases point with
    | publish _ | detach _ | advance _ _ => exact (Option.some_ne_none _ (blocked _ member)).elim
    | await head => exact (noAwait head member).elim
    | idle | link _ _ | getHead | holding _ | loaded _ _ => rfl
  intro point member
  cases point with
  | idle => exact Or.inl rfl
  | link _ _ | publish _ | holding _ | loaded _ _ | detach _ | advance _ _ =>
      exact (Option.some_ne_none _ (blocked _ member)).elim
  | await head => exact (noAwait head member).elim
  | getHead =>
      refine Or.inr ⟨rfl, ?_⟩
      have headless : final.shared.head = none := Option.map_eq_none_iff.mp (blocked _ member)
      have empty : items = [] := by
        by_contra nonempty
        have written := holds.writers.2.mpr ⟨headless, nonempty⟩
        omega
      rw [holds.history, empty, List.append_nil]

-- What a thread still does, besides popping nodes: each of these is another
-- five steps at most.
def Point.stepsLeft : Point → Nat
  | .idle => 0
  | .link _ _ | .publish _ | .advance _ _ => 1
  | .await _ => 2
  | .detach _ => 3
  | .loaded _ _ => 4
  | .holding _ => 5
  | .getHead => 6

theorem steps_left_small (point : Point) : point.stepsLeft ≤ 6 := by
  unfold Point.stepsLeft
  split <;> decide

def Queue.left (queue : Queue) : Nat := queue.pushed.length - queue.popped.length

theorem popped_left (head : Node) (holds : Queued queue threads items) (front : items.head? = some head) :
    queue.pushed.length - (queue.popped ++ [head]).length + 1 = queue.left := by
  obtain ⟨rest, rfl⟩ := List.head?_eq_some_iff.mp front
  rw [Queue.left, holds.history]
  simp only [List.length_append, List.length_cons, List.length_nil]
  omega

theorem resume_less (next : Queue) (point moved : Point) (holds : Queued queue threads items)
    (found : threads[index]? = some point) (resumed : act .resume queue point = some (next, moved)) :
    6 * next.left + moved.stepsLeft < 6 * queue.left + point.stepsLeft := by
  have stands := holds.stands point (List.mem_of_getElem? found)
  cases point with
  | idle => cases resumed
  | link prev first | publish first =>
      cases resumed
      exact Nat.lt_succ_self _
  | getHead =>
      obtain ⟨head, -, rest⟩ := Option.map_eq_some_iff.mp resumed
      cases rest
      exact Nat.lt_succ_self _
  | holding head =>
      cases resumed
      exact Nat.lt_succ_self _
  | loaded head n =>
      cases n with
      | none =>
          cases resumed
          exact Nat.lt_succ_self _
      | some n =>
          have popped := popped_left queue threads items head holds (holds.headed head stands.1)
          cases resumed
          change 6 * (queue.pushed.length - (queue.popped ++ [head]).length) + 5 < 6 * queue.left + 4
          omega
  | detach head =>
      have popped := popped_left queue threads items head holds stands.1
      have detached := Option.some.inj resumed
      unfold detachTail at detached
      by_cases last : queue.tail = some head
      · rw [if_pos last] at detached
        cases detached
        change 6 * (queue.pushed.length - (queue.popped ++ [head]).length) + 0 < 6 * queue.left + 3
        omega
      · rw [if_neg last] at detached
        cases detached
        exact Nat.lt_succ_self _
  | await head =>
      obtain ⟨n, -, rest⟩ := Option.map_eq_some_iff.mp resumed
      cases rest
      exact Nat.lt_succ_self _
  | advance head n =>
      have popped := popped_left queue threads items head holds stands.1
      cases resumed
      change 6 * (queue.pushed.length - (queue.popped ++ [head]).length) + 5 < 6 * queue.left + 1
      omega

theorem resumes_short (final last : System Queue Point) (later : List (Nat × Action))
    (holds : Queued final.shared final.threads items) (resumes : ∀ event ∈ later, event.2 = .resume)
    (ran : Runs.run (step act) final later = some last) :
    later.length ≤ 6 * (final.shared.left + final.threads.length) := by
  have bound := run_length_le act (fun queue threads => ∃ items, Queued queue threads items) (· = .resume)
    (fun queue => 6 * queue.left) Point.stepsLeft
    (fun action queue next threads index point moved holds found acted => by
      obtain ⟨items, holds⟩ := holds
      exact act_queued queue threads items index action next point moved holds found acted)
    (fun action queue next threads index point moved holds resume found acted => by
      obtain ⟨items, holds⟩ := holds
      obtain rfl := resume
      exact resume_less queue threads items index next point moved holds found acted)
    final last later resumes ran ⟨items, holds⟩
  have most := weigh_le_mul Point.stepsLeft final.threads 6 steps_left_small
  omega

-- Only so many steps are taken without a call of push or of the consumer, and a
-- run that goes on ends where every wait has ended.
theorem waits_end (count : Nat) (final : System Queue Point) (events : List (Nat × Action))
    (ran : Runs.run (step act) (created count) events = some final) :
    (∀ later last, (∀ event ∈ later, event.2 = .resume) → Runs.run (step act) final later = some last →
        later.length ≤ 6 * (final.shared.left + final.threads.length)) ∧
      ((∀ index, step act final (index, .resume) = none) → Rests final) := by
  obtain ⟨items, holds⟩ := run_queued count final events ran
  exact ⟨fun later last resumes continued => resumes_short items final last later holds resumes continued,
    stuck_rests items final holds⟩

theorem waits_end_waiting : ∃ final, Runs.run (step act) (created 2)
    [(0, .push 7 []), (1, .drain), (0, .resume), (1, .resume), (1, .resume), (1, .resume), (1, .resume),
      (1, .drain)] = some final ∧ final.threads = [.idle, .getHead] ∧ Rests final := by
  have ran : (Runs.run (step act) (created 2)
    [(0, .push 7 []), (1, .drain), (0, .resume), (1, .resume), (1, .resume), (1, .resume), (1, .resume),
      (1, .drain)]).isSome = true := by decide
  refine ⟨_, (Option.some_get ran).symm, rfl, (waits_end 2 _ _ (Option.some_get ran).symm).2 fun index => ?_⟩
  match index with
  | 0 => rfl
  | 1 => rfl
  | index + 2 => rfl

end CultivationMotain.Dispatch.MPSC

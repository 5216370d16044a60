import Mathlib.Data.List.Chain
import Mathlib.Data.List.Nodup
import CultivationMotain.Dispatch.Group

set_option autoImplicit false

namespace CultivationMotain.Dispatch.Groups

open Threads Weights

def Point.snapshot? : Point → Option Snapshot
  | .wakeWaiters snapshot _ | .wakePost _ snapshot _ => snapshot
  | .wakeSubmit snapshot _ => some snapshot
  | _ => none

-- The first continuation of a list whose head is not set.
def Point.front? : Point → Option Node
  | .wakeTail head _ => some head
  | .notifyRetain dsn | .notifyPublish dsn => some dsn
  | _ => none

def Point.link? : Point → Option (Node × Node)
  | .notifyLink prev dsn => some (prev, dsn)
  | _ => none

def Point.holds (node : Node) (point : Point) : Nat := point.snapshot?.elim 0 fun snapshot => snapshot.nodes.count node

def Point.fronts (point : Point) : Nat := point.front?.elim 0 fun _ => 1

def Point.linksFrom (node : Node) (point : Point) : Nat := point.link?.elim 0 fun link => if link.1 = node then 1 else 0

structure Taken (behind : Node → Option Node) (snapshot : Snapshot) : Prop where
  first : snapshot.nodes.head? = some snapshot.head
  last : snapshot.nodes.getLast? = some snapshot.tail
  chain : snapshot.nodes.IsChain fun before after => behind before = some after
  ended : behind snapshot.tail = none

structure Stands (list : NotifyList) (point : Point) : Prop where
  snapshot : ∀ snapshot, point.snapshot? = some snapshot → Taken list.behind snapshot
  front : ∀ head, point.front? = some head → list.listed.head? = some head ∧ list.dgNotifyHead = none
  link : ∀ prev dsn, point.link? = some (prev, dsn) → list.behind prev = some dsn ∧ list.doNext prev = none

-- Every block that was registered is in one place, and in one place only.
structure Listing (list : NotifyList) (threads : List Point) : Prop where
  fresh : list.registered.Nodup
  counts : ∀ node, list.registered.count node =
    list.submitted.count node + list.listed.count node + weigh (Point.holds node) threads
  tail : list.dgNotifyTail = list.listed.getLast?
  chain : list.listed.IsChain fun before after => list.behind before = some after
  ended : ∀ last, list.listed.getLast? = some last → list.behind last = none
  headed : ∀ head, list.dgNotifyHead = some head → list.listed.head? = some head
  links : ∀ node, list.doNext node = none ∨ list.doNext node = list.behind node
  linkers : ∀ node, weigh (Point.linksFrom node) threads ≤ 1 ∧
    (0 < weigh (Point.linksFrom node) threads ↔ list.behind node ≠ none ∧ list.doNext node = none)
  alive : ∀ node ∈ list.submitted, list.behind node = none ∨ list.doNext node ≠ none
  unknown : ∀ node, node ∉ list.registered → list.behind node = none ∧ list.doNext node = none
  writers : weigh Point.fronts threads ≤ 1 ∧
    (0 < weigh Point.fronts threads ↔ list.dgNotifyHead = none ∧ list.listed ≠ [])
  stands : ∀ point ∈ threads, Stands list point

variable (list : NotifyList) (threads : List Point) (index : Nat) (point moved : Point)

theorem no_front (others : List Point) (silence : weigh Point.fronts others = 0) (point : Point)
    (member : point ∈ others) (head : Node) : point.front? ≠ some head := by
  intro found
  have silent := (weigh_eq_zero_iff _ _).mp silence point member
  rw [Point.fronts, found] at silent
  cases silent

-- A move that is not about the list.
theorem same_listing (holds : Listing list threads) (found : threads[index]? = some point)
    (snapshot : moved.snapshot? = point.snapshot?) (front : moved.front? = point.front?)
    (link : moved.link? = point.link?) : Listing list (threads.set index moved) := by
  have heldSame (node : Node) : weigh (Point.holds node) (threads.set index moved) =
      weigh (Point.holds node) threads := by
    have moves := weigh_set (Point.holds node) threads index point moved found
    rw [Point.holds, Point.holds, snapshot] at moves
    exact Nat.add_right_cancel moves
  have linkSame (node : Node) : weigh (Point.linksFrom node) (threads.set index moved) =
      weigh (Point.linksFrom node) threads := by
    have moves := weigh_set (Point.linksFrom node) threads index point moved found
    rw [Point.linksFrom, Point.linksFrom, link] at moves
    exact Nat.add_right_cancel moves
  have frontSame : weigh Point.fronts (threads.set index moved) = weigh Point.fronts threads := by
    have moves := weigh_set Point.fronts threads index point moved found
    rw [Point.fronts, Point.fronts, front] at moves
    exact Nat.add_right_cancel moves
  have before := holds.stands point (List.mem_of_getElem? found)
  refine ⟨holds.fresh, fun node => ?_, holds.tail, holds.chain, holds.ended, holds.headed, holds.links, fun node => ?_,
    holds.alive, holds.unknown, ?_, ?_⟩
  · rw [heldSame node]
    exact holds.counts node
  · rw [linkSame node]
    exact holds.linkers node
  · rw [frontSame]
    exact holds.writers
  · exact forall_mem_set _ threads index moved (forall_mem_erase _ threads index holds.stands)
      ⟨snapshot ▸ before.snapshot, front ▸ before.front, link ▸ before.link⟩

theorem link_listing (prev dsn : Node) (holds : Listing list threads)
    (found : threads[index]? = some (.notifyLink prev dsn)) :
    Listing { list with doNext := Function.update list.doNext prev (some dsn) } (threads.set index .idle) := by
  obtain ⟨behind, missing⟩ := (holds.stands _ (List.mem_of_getElem? found)).link prev dsn rfl
  have known : prev ∈ list.registered := by
    by_contra unknown
    exact Option.some_ne_none dsn (behind.symm.trans (holds.unknown prev unknown).1)
  have erased : weigh (Point.linksFrom prev) (threads.eraseIdx index) + (if prev = prev then 1 else 0) =
      weigh (Point.linksFrom prev) threads := weigh_erase (Point.linksFrom prev) threads index _ found
  have most := (holds.linkers prev).1
  rw [if_pos rfl] at erased
  have alone : weigh (Point.linksFrom prev) (threads.eraseIdx index) = 0 := by omega
  have written : Function.update list.doNext prev (some dsn) prev = some dsn := Function.update_self _ _ _
  have other (node : Node) (different : node ≠ prev) :
      Function.update list.doNext prev (some dsn) node = list.doNext node := Function.update_of_ne different _ _
  refine ⟨holds.fresh, fun node => ?_, holds.tail, holds.chain, holds.ended, holds.headed, fun node => ?_,
    fun node => ?_, fun node member => ?_, fun node outside => ?_, ?_, ?_⟩
  · have same : weigh (Point.holds node) (threads.set index .idle) = weigh (Point.holds node) threads :=
      weigh_set (Point.holds node) threads index _ .idle found
    rw [same]
    exact holds.counts node
  · by_cases here : node = prev
    · subst here
      exact Or.inr (written.trans behind.symm)
    · simp only [other node here]
      exact holds.links node
  · have moved : weigh (Point.linksFrom node) (threads.set index .idle) + (if prev = node then 1 else 0) =
        weigh (Point.linksFrom node) threads := weigh_set (Point.linksFrom node) threads index _ .idle found
    by_cases here : node = prev
    · subst here
      rw [if_pos rfl] at moved
      have none : weigh (Point.linksFrom node) (threads.set index .idle) = 0 := by omega
      rw [none]
      exact ⟨Nat.zero_le 1, iff_of_false (Nat.lt_irrefl 0) fun gap => Option.some_ne_none dsn
        (written.symm.trans gap.2)⟩
    · rw [if_neg (Ne.symm here), Nat.add_zero] at moved
      simp only [moved, other node here]
      exact holds.linkers node
  · by_cases here : node = prev
    · subst here
      exact Or.inr fun absent => Option.some_ne_none dsn (written.symm.trans absent)
    · simp only [other node here]
      exact holds.alive node member
  · simp only [other node (ne_of_mem_of_not_mem known outside).symm]
    exact holds.unknown node outside
  · have same : weigh Point.fronts (threads.set index .idle) = weigh Point.fronts threads :=
      weigh_set Point.fronts threads index _ .idle found
    rw [same]
    exact holds.writers
  · refine forall_mem_set _ threads index .idle (fun point elsewhere => ?_)
      ⟨fun _ => nofun, fun _ => nofun, fun _ _ => nofun⟩
    have before := forall_mem_erase _ threads index holds.stands point elsewhere
    refine ⟨before.snapshot, before.front, fun first second found => ?_⟩
    have silent := (weigh_eq_zero_iff _ _).mp alone point elsewhere
    have different : first ≠ prev := by
      intro same
      rw [Point.linksFrom, found, Option.elim_some, if_pos same] at silent
      cases silent
    exact ⟨(before.link first second found).1, (other first different).trans (before.link first second found).2⟩

theorem publish_listing (dsn : Node) (holds : Listing list threads)
    (found : threads[index]? = some (.notifyPublish dsn)) :
    Listing { list with dgNotifyHead := some dsn } (threads.set index .notifyCheck) := by
  obtain ⟨front, headless⟩ := (holds.stands _ (List.mem_of_getElem? found)).front dsn rfl
  have most := holds.writers.1
  have erased : weigh Point.fronts (threads.eraseIdx index) + 1 = weigh Point.fronts threads :=
    weigh_erase Point.fronts threads index _ found
  have written : weigh Point.fronts (threads.set index .notifyCheck) + 1 = weigh Point.fronts threads :=
    weigh_set Point.fronts threads index _ .notifyCheck found
  have alone : weigh Point.fronts (threads.eraseIdx index) = 0 := by omega
  refine ⟨holds.fresh, fun node => ?_, holds.tail, holds.chain, holds.ended, fun head set => ?_, holds.links,
    fun node => ?_, holds.alive, holds.unknown, ?_, ?_⟩
  · have same : weigh (Point.holds node) (threads.set index .notifyCheck) = weigh (Point.holds node) threads :=
      weigh_set (Point.holds node) threads index _ .notifyCheck found
    rw [same]
    exact holds.counts node
  · cases set
    exact front
  · have same : weigh (Point.linksFrom node) (threads.set index .notifyCheck) =
      weigh (Point.linksFrom node) threads := weigh_set (Point.linksFrom node) threads index _ .notifyCheck found
    rw [same]
    exact holds.linkers node
  · have none : weigh Point.fronts (threads.set index .notifyCheck) = 0 := by omega
    rw [none]
    exact ⟨Nat.zero_le 1, iff_of_false (Nat.lt_irrefl 0) fun both => Option.some_ne_none dsn both.1⟩
  · refine forall_mem_set _ threads index .notifyCheck (fun point elsewhere => ?_)
      ⟨fun _ => nofun, fun _ => nofun, fun _ _ => nofun⟩
    have before := forall_mem_erase _ threads index holds.stands point elsewhere
    exact ⟨before.snapshot, fun head found => (no_front _ alone point elsewhere head found).elim, before.link⟩

theorem take_head_listing (head : Node) (after : After) (holds : Listing list threads)
    (found : threads[index]? = some (.wakeHead after)) (set : list.dgNotifyHead = some head) :
    Listing { list with dgNotifyHead := none } (threads.set index (.wakeTail head after)) := by
  have front := holds.headed head set
  have silence : weigh Point.fronts threads = 0 := by
    have old := holds.writers.2.not.mpr fun both => Option.some_ne_none head (set.symm.trans both.1)
    omega
  have nonempty : list.listed ≠ [] := by
    intro empty
    rw [empty] at front
    cases front
  refine ⟨holds.fresh, fun node => ?_, holds.tail, holds.chain, holds.ended, fun _ => nofun, holds.links,
    fun node => ?_, holds.alive, holds.unknown, ?_, ?_⟩
  · have same : weigh (Point.holds node) (threads.set index (.wakeTail head after)) =
      weigh (Point.holds node) threads := weigh_set (Point.holds node) threads index _ (.wakeTail head after) found
    rw [same]
    exact holds.counts node
  · have same : weigh (Point.linksFrom node) (threads.set index (.wakeTail head after)) =
      weigh (Point.linksFrom node) threads :=
      weigh_set (Point.linksFrom node) threads index _ (.wakeTail head after) found
    rw [same]
    exact holds.linkers node
  · have moves : weigh Point.fronts (threads.set index (.wakeTail head after)) = weigh Point.fronts threads + 1 :=
      weigh_set Point.fronts threads index _ (.wakeTail head after) found
    rw [moves, silence]
    exact ⟨Nat.le_refl 1, iff_of_true Nat.one_pos ⟨rfl, nonempty⟩⟩
  · refine forall_mem_set _ threads index _ (fun point elsewhere => ?_)
      ⟨fun _ => nofun, fun other same => Option.some.inj same ▸ ⟨front, rfl⟩, fun _ _ => nofun⟩
    have before := forall_mem_erase _ threads index holds.stands point elsewhere
    exact ⟨before.snapshot, fun head found =>
      (no_front _ silence point (List.mem_of_mem_eraseIdx elsewhere) head found).elim, before.link⟩

theorem take_tail_listing (head : Node) (after : After) (holds : Listing list threads)
    (found : threads[index]? = some (.wakeTail head after)) :
    Listing { list with dgNotifyTail := none, listed := [] } (threads.set index
      (.wakeWaiters (list.dgNotifyTail.map fun tail => ⟨head, tail, list.listed⟩) after)) := by
  obtain ⟨front, headless⟩ := (holds.stands _ (List.mem_of_getElem? found)).front head rfl
  obtain ⟨rest, listed⟩ := List.head?_eq_some_iff.mp front
  have last : list.listed.getLast? = some ((head :: rest).getLast (List.cons_ne_nil _ _)) := by
    rw [listed, List.getLast?_eq_some_getLast (List.cons_ne_nil head rest)]
  generalize (head :: rest).getLast (List.cons_ne_nil _ _) = tail at last
  rw [holds.tail, last, Option.map_some]
  have most := holds.writers.1
  have erased : weigh Point.fronts (threads.eraseIdx index) + 1 = weigh Point.fronts threads :=
    weigh_erase Point.fronts threads index _ found
  have alone : weigh Point.fronts (threads.eraseIdx index) = 0 := by omega
  generalize result : Point.wakeWaiters (some ⟨head, tail, list.listed⟩) after = moved
  refine ⟨holds.fresh, fun node => ?_, rfl, List.IsChain.nil, fun _ => nofun, fun other set => ?_, holds.links,
    fun node => ?_, holds.alive, holds.unknown, ?_, ?_⟩
  · have moves : weigh (Point.holds node) (threads.set index moved) =
        weigh (Point.holds node) threads + list.listed.count node := by
      cases result
      exact weigh_set (Point.holds node) threads index _ _ found
    have counts := holds.counts node
    rw [moves, List.count_nil]
    change list.registered.count node = list.submitted.count node + 0 + _
    omega
  · exact (Option.some_ne_none other (set.symm.trans headless)).elim
  · have same : weigh (Point.linksFrom node) (threads.set index moved) = weigh (Point.linksFrom node) threads := by
      cases result
      exact weigh_set (Point.linksFrom node) threads index _ _ found
    rw [same]
    exact holds.linkers node
  · have moves : weigh Point.fronts (threads.set index moved) + 1 = weigh Point.fronts threads := by
      cases result
      exact weigh_set Point.fronts threads index _ _ found
    have none : weigh Point.fronts (threads.set index moved) = 0 := by omega
    rw [none]
    exact ⟨Nat.zero_le 1, iff_of_false (Nat.lt_irrefl 0) fun both => both.2 rfl⟩
  · refine forall_mem_set _ threads index _ (fun point elsewhere => ?_) ?_
    · have before := forall_mem_erase _ threads index holds.stands point elsewhere
      exact ⟨before.snapshot, fun head found => (no_front _ alone point elsewhere head found).elim, before.link⟩
    · cases result
      refine ⟨fun snapshot same => ?_, fun _ => nofun, fun _ _ => nofun⟩
      cases same
      exact ⟨front, last, holds.chain, holds.ended tail last⟩

-- One block is given to its queue; the wake goes on with the others.
theorem submit_listing (snapshot : Snapshot) (after : After) (rest : List Node) (holds : Listing list threads)
    (found : threads[index]? = some (.wakeSubmit snapshot after)) (nodes : snapshot.nodes = snapshot.head :: rest)
    (front : moved.front? = none) (link : moved.link? = none)
    (left : ∀ node, moved.holds node = rest.count node)
    (taken : ∀ snapshot, moved.snapshot? = some snapshot → Taken list.behind snapshot)
    (alive : list.behind snapshot.head = none ∨ list.doNext snapshot.head ≠ none) :
    Listing { list with submitted := list.submitted ++ [snapshot.head] } (threads.set index moved) := by
  refine ⟨holds.fresh, fun node => ?_, holds.tail, holds.chain, holds.ended, holds.headed, holds.links,
    fun node => ?_, fun node member => ?_, holds.unknown, ?_, ?_⟩
  · have moves : weigh (Point.holds node) (threads.set index moved) + snapshot.nodes.count node =
        weigh (Point.holds node) threads + moved.holds node :=
      weigh_set (Point.holds node) threads index _ moved found
    have counts := holds.counts node
    have split : snapshot.nodes.count node = [snapshot.head].count node + rest.count node := by
      rw [nodes, ← List.count_append]
      rfl
    rw [left node] at moves
    simp only [List.count_append]
    omega
  · have same : weigh (Point.linksFrom node) (threads.set index moved) = weigh (Point.linksFrom node) threads := by
      have moves := weigh_set (Point.linksFrom node) threads index _ moved found
      rw [Point.linksFrom, Point.linksFrom, link] at moves
      exact Nat.add_right_cancel moves
    rw [same]
    exact holds.linkers node
  · rcases List.mem_append.mp member with before | here
    · exact holds.alive node before
    · cases List.mem_singleton.mp here
      exact alive
  · have same : weigh Point.fronts (threads.set index moved) = weigh Point.fronts threads := by
      have moves := weigh_set Point.fronts threads index _ moved found
      rw [Point.fronts, Point.fronts, front] at moves
      exact Nat.add_right_cancel moves
    rw [same]
    exact holds.writers
  · refine forall_mem_set _ threads index moved (fun point elsewhere => ?_)
      ⟨taken, fun head same => ?_, fun prev dsn same => ?_⟩
    · have before := forall_mem_erase _ threads index holds.stands point elsewhere
      exact ⟨before.snapshot, before.front, before.link⟩
    · exact (Option.some_ne_none head (same.symm.trans front)).elim
    · exact (Option.some_ne_none _ (same.symm.trans link)).elim

theorem wake_submit_listing (group next : Group) (snapshot : Snapshot) (after : After)
    (holds : Listing group.toNotifyList threads) (found : threads[index]? = some (.wakeSubmit snapshot after))
    (taken : wakeSubmit group snapshot after = some (next, moved)) :
    Listing next.toNotifyList (threads.set index moved) := by
  obtain ⟨first, last, chain, ended⟩ := (holds.stands _ (List.mem_of_getElem? found)).snapshot snapshot rfl
  obtain ⟨rest, nodes⟩ := List.head?_eq_some_iff.mp first
  rw [nodes] at last chain
  unfold wakeSubmit at taken
  by_cases same : snapshot.head = snapshot.tail
  · rw [if_pos same] at taken
    cases taken
    have alone : rest = [] := by
      cases rest with
      | nil => rfl
      | cons second rest =>
          have behind := (List.isChain_cons_cons.mp chain).1
          exact (Option.some_ne_none second (behind.symm.trans (same ▸ ended))).elim
    cases alone
    exact submit_listing group.toNotifyList threads index (.wakeReleaseList after) snapshot after [] holds found
      nodes rfl
      rfl (fun _ => rfl) (fun _ => nofun) (Or.inl (same ▸ ended))
  · rw [if_neg same] at taken
    obtain ⟨n, link, result⟩ := Option.map_eq_some_iff.mp taken
    cases result
    cases rest with
    | nil => exact (same (Option.some.inj last)).elim
    | cons second rest =>
        obtain ⟨behind, chain⟩ := List.isChain_cons_cons.mp chain
        have written : n = second := by
          rcases holds.links snapshot.head with absent | agrees
          · exact (Option.some_ne_none n (link.symm.trans absent)).elim
          · exact Option.some.inj (link.symm.trans (agrees.trans behind))
        cases written
        refine submit_listing group.toNotifyList threads index _ snapshot after (n :: rest) holds found nodes rfl
          rfl (fun node => ?_) (fun other equal => ?_)
          (Or.inr fun absent => Option.some_ne_none n (link.symm.trans absent))
        · change snapshot.nodes.tail.count node = _
          rw [nodes]
          rfl
        · cases equal
          refine ⟨?_, ?_, ?_, ended⟩
          · rw [nodes]
            rfl
          · rw [nodes]
            rwa [List.getLast?_cons_cons] at last
          · rw [nodes]
            exact chain

-- The first block of a list.
theorem push_first_listing (dsn : Node) (holds : Listing list threads) (found : threads[index]? = some .idle)
    (new : dsn ∉ list.registered) (empty : list.dgNotifyTail = none) :
    Listing { list with
      doNext := Function.update list.doNext dsn none
      dgNotifyTail := some dsn
      registered := list.registered ++ [dsn]
      listed := list.listed ++ [dsn] } (threads.set index (.notifyRetain dsn)) := by
  have listed : list.listed = [] := List.getLast?_eq_none_iff.mp (holds.tail.symm.trans empty)
  have links : Function.update list.doNext dsn none = list.doNext := by
    rw [← (holds.unknown dsn new).2, Function.update_eq_self]
  have headless : list.dgNotifyHead = none := by
    refine Option.eq_none_iff_forall_ne_some.mpr fun head set => ?_
    have front := holds.headed head set
    rw [listed] at front
    cases front
  have silence : weigh Point.fronts threads = 0 := by
    have old := holds.writers.2.not.mpr fun both => both.2 listed
    omega
  rw [links, listed]
  refine ⟨?_, fun node => ?_, rfl, List.IsChain.singleton dsn, fun last same => ?_, fun head set => ?_, holds.links,
    fun node => ?_, holds.alive, fun node outside => ?_, ?_, ?_⟩
  · exact List.nodup_append.mpr ⟨holds.fresh, List.nodup_singleton dsn, fun node member other same equal =>
      new (List.mem_singleton.mp same ▸ equal ▸ member)⟩
  · have same : weigh (Point.holds node) (threads.set index (.notifyRetain dsn)) = weigh (Point.holds node) threads :=
      weigh_set (Point.holds node) threads index _ (.notifyRetain dsn) found
    have counts := holds.counts node
    rw [listed, List.count_nil] at counts
    rw [same]
    simp only [List.count_append, List.nil_append]
    omega
  · cases same
    exact (holds.unknown dsn new).1
  · exact (Option.some_ne_none head (set.symm.trans headless)).elim
  · have same : weigh (Point.linksFrom node) (threads.set index (.notifyRetain dsn)) =
      weigh (Point.linksFrom node) threads := weigh_set (Point.linksFrom node) threads index _ (.notifyRetain dsn) found
    rw [same]
    exact holds.linkers node
  · exact holds.unknown node fun member => outside (List.mem_append_left _ member)
  · have moves : weigh Point.fronts (threads.set index (.notifyRetain dsn)) = weigh Point.fronts threads + 1 :=
      weigh_set Point.fronts threads index _ (.notifyRetain dsn) found
    rw [moves, silence]
    exact ⟨Nat.le_refl 1, iff_of_true Nat.one_pos ⟨headless, List.cons_ne_nil _ _⟩⟩
  · refine forall_mem_set _ threads index _ (fun point elsewhere => ?_)
      ⟨fun _ => nofun, fun head same => Option.some.inj same ▸ ⟨rfl, headless⟩, fun _ _ => nofun⟩
    have before := forall_mem_erase _ threads index holds.stands point elsewhere
    exact ⟨before.snapshot, fun head found =>
      (no_front _ silence point (List.mem_of_mem_eraseIdx elsewhere) head found).elim, before.link⟩

theorem push_behind_listing (prev dsn : Node) (holds : Listing list threads) (found : threads[index]? = some .idle)
    (new : dsn ∉ list.registered) (set : list.dgNotifyTail = some prev) :
    Listing { list with
      doNext := Function.update list.doNext dsn none
      dgNotifyTail := some dsn
      registered := list.registered ++ [dsn]
      listed := list.listed ++ [dsn]
      behind := Function.update list.behind prev (some dsn) } (threads.set index (.notifyLink prev dsn)) := by
  have last : list.listed.getLast? = some prev := holds.tail.symm.trans set
  have ended := holds.ended prev last
  have inside : prev ∈ list.listed := List.mem_of_getLast? last
  have nonempty : list.listed ≠ [] := List.ne_nil_of_mem inside
  have links : Function.update list.doNext dsn none = list.doNext := by
    rw [← (holds.unknown dsn new).2, Function.update_eq_self]
  have missing : list.doNext prev = none := (holds.links prev).elim id fun agrees => agrees.trans ended
  have single : list.registered.count prev ≤ 1 := List.nodup_iff_count_le_one.mp holds.fresh prev
  have here : 0 < list.listed.count prev := List.count_pos_iff.mpr inside
  have counts := holds.counts prev
  have known : prev ∈ list.registered := List.count_pos_iff.mp (by omega)
  have different : dsn ≠ prev := fun same => new (same ▸ known)
  have written : Function.update list.behind prev (some dsn) prev = some dsn := Function.update_self _ _ _
  have other (node : Node) (apart : node ≠ prev) :
      Function.update list.behind prev (some dsn) node = list.behind node := Function.update_of_ne apart _ _
  have kept (before after : Node) (follows : list.behind before = some after) :
      Function.update list.behind prev (some dsn) before = some after := by
    rw [other before fun same => Option.some_ne_none after (follows.symm.trans (same ▸ ended))]
    exact follows
  rw [links]
  refine ⟨?_, fun node => ?_, ?_, ?_, fun tail same => ?_, fun head front => ?_, fun node => ?_, fun node => ?_,
    fun node member => ?_, fun node outside => ?_, ?_, ?_⟩
  · exact List.nodup_append.mpr ⟨holds.fresh, List.nodup_singleton dsn, fun node member other same equal =>
      new (List.mem_singleton.mp same ▸ equal ▸ member)⟩
  · have same : weigh (Point.holds node) (threads.set index (.notifyLink prev dsn)) =
      weigh (Point.holds node) threads := weigh_set (Point.holds node) threads index _ (.notifyLink prev dsn) found
    have counts := holds.counts node
    rw [same]
    simp only [List.count_append]
    omega
  · exact List.getLast?_concat.symm
  · refine List.isChain_append.mpr
      ⟨holds.chain.imp kept, List.IsChain.singleton dsn, fun before member after first => ?_⟩
    cases Option.some.inj (last.symm.trans member)
    cases first
    exact written
  · cases Option.some.inj (List.getLast?_concat.symm.trans same)
    exact (other dsn different).trans (holds.unknown dsn new).1
  · rw [List.head?_append_of_ne_nil _ nonempty]
    exact holds.headed head front
  · by_cases same : node = prev
    · exact Or.inl (same ▸ missing)
    · simp only [other node same]
      exact holds.links node
  · have moves : weigh (Point.linksFrom node) (threads.set index (.notifyLink prev dsn)) =
      weigh (Point.linksFrom node) threads + if prev = node then 1 else 0 :=
      weigh_set (Point.linksFrom node) threads index _ (.notifyLink prev dsn) found
    by_cases same : node = prev
    · subst same
      rw [if_pos rfl] at moves
      have none := (holds.linkers node).2.not.mpr fun gap => gap.1 ended
      have one : weigh (Point.linksFrom node) (threads.set index (.notifyLink node dsn)) = 1 := by omega
      rw [one]
      exact ⟨Nat.le_refl 1, iff_of_true Nat.one_pos
        ⟨fun absent => Option.some_ne_none dsn (written.symm.trans absent), missing⟩⟩
    · rw [if_neg (Ne.symm same), Nat.add_zero] at moves
      simp only [moves, other node same]
      exact holds.linkers node
  · have apart : node ≠ prev := by
      rintro rfl
      have twice : 0 < list.submitted.count node := List.count_pos_iff.mpr member
      omega
    simp only [other node apart]
    exact holds.alive node member
  · have unknown : node ∉ list.registered := fun member => outside (List.mem_append_left _ member)
    simp only [other node (ne_of_mem_of_not_mem known unknown).symm]
    exact holds.unknown node unknown
  · have same : weigh Point.fronts (threads.set index (.notifyLink prev dsn)) = weigh Point.fronts threads :=
      weigh_set Point.fronts threads index _ (.notifyLink prev dsn) found
    rw [same]
    refine ⟨holds.writers.1, holds.writers.2.trans (and_congr_right fun _ => ?_)⟩
    exact iff_of_true nonempty (List.append_ne_nil_of_left_ne_nil nonempty _)
  · refine forall_mem_set _ threads index _ (fun point elsewhere => ?_)
      ⟨fun _ => nofun, fun _ => nofun, fun _ _ same => ?_⟩
    · have before := forall_mem_erase _ threads index holds.stands point elsewhere
      refine ⟨fun snapshot taken => ?_, fun head front => ?_, fun first second link => ?_⟩
      · obtain ⟨first, tail, chain, stop⟩ := before.snapshot snapshot taken
        have apart : snapshot.tail ≠ prev := by
          intro same
          have held : 0 < point.holds prev := by
            rw [Point.holds, taken, Option.elim_some]
            exact List.count_pos_iff.mpr (same ▸ List.mem_of_getLast? tail)
          have most := weight_le_weigh (Point.holds prev) threads point (List.mem_of_mem_eraseIdx elsewhere)
          omega
        exact ⟨first, tail, chain.imp kept, (other _ apart).trans stop⟩
      · rw [List.head?_append_of_ne_nil _ nonempty]
        exact before.front head front
      · exact ⟨kept first second (before.link first second link).1, (before.link first second link).2⟩
    · cases same
      exact ⟨written, missing⟩

end CultivationMotain.Dispatch.Groups

import Mathlib.Data.List.Basic
import Mathlib.Data.List.Find

set_option autoImplicit false

namespace Serving

universe u v w x

variable {Group : Type u} {Desk : Type v} {Item : Type w} {Token : Type x}

-- Items queue for the desks. Each desk is passed once, and serves the first
-- item of the queue if it accepts it.
def serve (accepts : Desk → Item → Bool) : List Desk → List Item → List (Desk × Item)
  | [], _ => []
  | _ :: _, [] => []
  | desk :: desks, item :: queue =>
      if accepts desk item then (desk, item) :: serve accepts desks queue else serve accepts desks (item :: queue)

structure Service (Group : Type u) (Desk : Type v) (Item : Type w) (Token : Type x) where
  group : Group
  desk : Desk
  token : Token
  item : Item

variable (desks : Group → List Desk) (accepts : Desk → Item → Bool) (opens : Item → Option Token)

-- What a group of desks serves: the first item of the queue at the start of
-- the group either opens it, with a token that serves for all of the group, or
-- leaves it closed.
def serveGroup (group : Group) (queue : List Item) : List (Service Group Desk Item Token) :=
  match queue.head?.bind opens with
  | none => []
  | some token => (serve accepts (desks group) queue).map fun served => ⟨group, served.1, token, served.2⟩

def rounds : List Group → List Item → List (Service Group Desk Item Token)
  | [], _ => []
  | group :: groups, queue =>
      let served := serveGroup desks accepts opens group queue
      served ++ rounds groups (queue.drop served.length)

section Serve

variable {accepts}

def deskOf (accepts : Desk → Item → Bool) (row : List Desk) (item : Item) : Nat :=
  row.findIdx fun desk => accepts desk item

def Apart (accepts : Desk → Item → Bool) (row : List Desk) : Prop :=
  row.Pairwise fun first second => ∀ item, ¬ (accepts first item = true ∧ accepts second item = true)

theorem serve_nil (row : List Desk) : serve accepts row [] = [] := by
  cases row <;> rfl

theorem serve_items (row : List Desk) (queue : List Item) : (serve accepts row queue).map Prod.snd <+: queue := by
  induction row generalizing queue with
  | nil => exact List.nil_prefix
  | cons desk row ih =>
      cases queue with
      | nil => exact List.nil_prefix
      | cons item queue =>
          simp only [serve]
          split
          · exact List.cons_prefix_cons.mpr ⟨rfl, ih queue⟩
          · exact ih (item :: queue)

theorem serve_desks (row : List Desk) (queue : List Item) : ((serve accepts row queue).map Prod.fst).Sublist row := by
  induction row generalizing queue with
  | nil => exact List.Sublist.refl []
  | cons desk row ih =>
      cases queue with
      | nil => exact List.nil_sublist _
      | cons item queue =>
          simp only [serve]
          split
          · exact (ih queue).cons_cons desk
          · exact (ih (item :: queue)).cons desk

theorem serve_accepts (row : List Desk) (queue : List Item) :
    ∀ served ∈ serve accepts row queue, accepts served.1 served.2 = true := by
  induction row generalizing queue with
  | nil => exact fun served member => nomatch member
  | cons desk row ih =>
      cases queue with
      | nil => exact fun served member => nomatch member
      | cons item queue =>
          simp only [serve]
          split
          · rename_i accepted
            exact List.forall_mem_cons.mpr ⟨accepted, ih queue⟩
          · exact ih (item :: queue)

theorem desk_of_accepted (desk : Desk) (row : List Desk) (item : Item) (accepted : accepts desk item = true) :
    deskOf accepts (desk :: row) item = 0 := by
  simp [deskOf, List.findIdx_cons, accepted]

theorem desk_of_refused (desk : Desk) (row : List Desk) (item : Item) (refused : ¬ accepts desk item = true) :
    deskOf accepts (desk :: row) item = deskOf accepts row item + 1 := by
  simp [deskOf, List.findIdx_cons, refused]

theorem desk_of_lt (row : List Desk) (item : Item) :
    deskOf accepts row item < row.length ↔ ∃ desk ∈ row, accepts desk item = true :=
  List.findIdx_lt_length

theorem serve_reaches (row : List Desk) (front back : List Item)
    (increasing : front.Pairwise fun first second => deskOf accepts row first < deskOf accepts row second)
    (located : ∀ item ∈ front, deskOf accepts row item < row.length) :
    front.length ≤ (serve accepts row (front ++ back)).length := by
  induction row generalizing front with
  | nil =>
      cases front with
      | nil => exact Nat.zero_le _
      | cons item front => exact absurd (located item List.mem_cons_self) (Nat.not_lt_zero _)
  | cons desk row ih =>
      cases front with
      | nil => exact Nat.zero_le _
      | cons item front =>
          obtain ⟨first, rest⟩ := List.pairwise_cons.mp increasing
          have refusing : ∀ other ∈ front, ¬ accepts desk other = true := by
            intro other member accepted
            have later := first other member
            rw [desk_of_accepted desk row other accepted] at later
            exact absurd later (Nat.not_lt_zero _)
          -- What is refused here has its place among the other desks.
          have remaining : ∀ waiting : List Item, (∀ other ∈ waiting, ¬ accepts desk other = true) →
              (waiting.Pairwise fun first second =>
                deskOf accepts (desk :: row) first < deskOf accepts (desk :: row) second) →
              (∀ other ∈ waiting, deskOf accepts (desk :: row) other < (desk :: row).length) →
              waiting.length ≤ (serve accepts row (waiting ++ back)).length := by
            intro waiting refused ordered placed
            refine ih waiting (ordered.imp_of_mem fun {one two} one_in two_in less => ?_) fun other member => ?_
            · rw [desk_of_refused desk row one (refused one one_in),
                desk_of_refused desk row two (refused two two_in)] at less
              exact Nat.lt_of_succ_lt_succ less
            · have there := placed other member
              rw [desk_of_refused desk row other (refused other member)] at there
              exact Nat.lt_of_succ_lt_succ there
          simp only [List.cons_append, serve]
          split
          · exact Nat.succ_le_succ
              (remaining front refusing rest fun other member => located other (List.mem_cons_of_mem _ member))
          · rename_i refused
            exact remaining (item :: front) (List.forall_mem_cons.mpr ⟨refused, refusing⟩) increasing located

theorem desks_increase (row : List Desk) (served : List (Desk × Item)) (apart : Apart accepts row)
    (inside : (served.map Prod.fst).Sublist row) (accepted : ∀ pair ∈ served, accepts pair.1 pair.2 = true) :
    (served.map Prod.snd).Pairwise fun first second => deskOf accepts row first < deskOf accepts row second := by
  induction row generalizing served with
  | nil =>
      obtain rfl := List.map_eq_nil_iff.mp (List.sublist_nil.mp inside)
      exact List.Pairwise.nil
  | cons desk row ih =>
      obtain ⟨alone, apart⟩ := List.pairwise_cons.mp apart
      have later : ∀ pairs : List (Desk × Item), (pairs.map Prod.fst).Sublist row →
          (∀ pair ∈ pairs, accepts pair.1 pair.2 = true) →
          ∀ item ∈ pairs.map Prod.snd, deskOf accepts (desk :: row) item = deskOf accepts row item + 1 := by
        intro pairs among all item member
        obtain ⟨pair, there, rfl⟩ := List.mem_map.mp member
        refine desk_of_refused desk row pair.2 fun both => ?_
        exact alone pair.1 (among.subset (List.mem_map_of_mem there)) pair.2 ⟨both, all pair there⟩
      have shifted : ∀ pairs : List (Desk × Item), (pairs.map Prod.fst).Sublist row →
          (∀ pair ∈ pairs, accepts pair.1 pair.2 = true) →
          (pairs.map Prod.snd).Pairwise fun first second =>
            deskOf accepts (desk :: row) first < deskOf accepts (desk :: row) second := by
        intro pairs among all
        refine (ih pairs apart among all).imp_of_mem fun {one two} one_in two_in less => ?_
        rw [later pairs among all one one_in, later pairs among all two two_in]
        exact Nat.succ_lt_succ less
      cases served with
      | nil => exact List.Pairwise.nil
      | cons pair served =>
          rcases List.sublist_cons_iff.mp inside with skipped | ⟨_, same, among⟩
          · exact shifted (pair :: served) skipped accepted
          · rw [List.map_cons, List.cons.injEq] at same
            obtain ⟨rfl, rfl⟩ := same
            have rest := fun other member => accepted other (List.mem_cons_of_mem pair member)
            refine List.pairwise_cons.mpr ⟨fun item member => ?_, shifted served among rest⟩
            rw [desk_of_accepted pair.1 row pair.2 (accepted pair List.mem_cons_self),
              later served among rest item member]
            exact Nat.succ_pos _

end Serve

section Rounds

def inGroup (group : Group) (item : Item) : Bool := (desks group).any fun desk => accepts desk item

def groupOf (groups : List Group) (item : Item) : Nat := groups.findIdx fun group => inGroup desks accepts group item

-- The first item of the queue that waits for the group of the given one.
def leader (groups : List Group) (queue : List Item) (item : Item) : Option Item :=
  queue.find? fun other => groupOf desks accepts groups other == groupOf desks accepts groups item

theorem serve_group_items (group : Group) (queue : List Item) :
    (serveGroup desks accepts opens group queue).map Service.item <+: queue := by
  unfold serveGroup
  cases queue.head?.bind opens with
  | none => exact List.nil_prefix
  | some token =>
      rw [List.map_map]
      exact serve_items (desks group) queue

theorem serve_group_sound (group : Group) (queue : List Item) :
    ∀ served ∈ serveGroup desks accepts opens group queue, served.group = group ∧ served.desk ∈ desks group ∧
      accepts served.desk served.item = true ∧ queue.head?.bind opens = some served.token := by
  unfold serveGroup
  cases opened : queue.head?.bind opens with
  | none => exact fun served member => nomatch member
  | some token =>
      intro served member
      obtain ⟨pair, there, rfl⟩ := List.mem_map.mp member
      exact ⟨rfl, (serve_desks (desks group) queue).subset (List.mem_map_of_mem there),
        serve_accepts (desks group) queue pair there, rfl⟩

theorem serve_group_desks (group : Group) (queue : List Item) :
    ((serveGroup desks accepts opens group queue).map Service.desk).Sublist (desks group) := by
  unfold serveGroup
  cases queue.head?.bind opens with
  | none => exact List.nil_sublist _
  | some token =>
      rw [List.map_map]
      exact serve_desks (desks group) queue

theorem serve_group_front (group : Group) (queue : List Item) :
    let served := serveGroup desks accepts opens group queue
    queue = served.map Service.item ++ queue.drop served.length ∧
      ∀ item ∈ served.map Service.item, inGroup desks accepts group item = true := by
  intro served
  constructor
  · obtain ⟨rest, whole⟩ := serve_group_items desks accepts opens group queue
    have length : served.length = (served.map Service.item).length := (List.length_map _).symm
    rw [length]
    conv_rhs => rw [← whole]
    rw [List.drop_left]
    exact whole.symm
  · intro item member
    obtain ⟨one, there, rfl⟩ := List.mem_map.mp member
    obtain ⟨_, desk_in, accepted, _⟩ := serve_group_sound desks accepts opens group queue one there
    exact List.any_eq_true.mpr ⟨one.desk, desk_in, accepted⟩

theorem rounds_items (groups : List Group) (queue : List Item) :
    (rounds desks accepts opens groups queue).map Service.item <+: queue := by
  induction groups generalizing queue with
  | nil => exact List.nil_prefix
  | cons group groups ih =>
      obtain ⟨whole, _⟩ := serve_group_front desks accepts opens group queue
      rw [rounds, List.map_append]
      conv_rhs => rw [whole]
      exact List.prefix_append_right_inj _ |>.mpr (ih _)

theorem rounds_sound (groups : List Group) (queue : List Item) :
    ∀ served ∈ rounds desks accepts opens groups queue,
      served.group ∈ groups ∧ served.desk ∈ desks served.group ∧ accepts served.desk served.item = true := by
  induction groups generalizing queue with
  | nil => exact fun served member => nomatch member
  | cons group groups ih =>
      intro served member
      rcases List.mem_append.mp member with now | later
      · obtain ⟨rfl, desk_in, accepted, _⟩ := serve_group_sound desks accepts opens group queue served now
        exact ⟨List.mem_cons_self, desk_in, accepted⟩
      · obtain ⟨group_in, rest⟩ := ih _ served later
        exact ⟨List.mem_cons_of_mem group group_in, rest⟩

theorem rounds_desks (groups : List Group) (queue : List Item) :
    ((rounds desks accepts opens groups queue).map Service.desk).Sublist (groups.flatMap desks) := by
  induction groups generalizing queue with
  | nil => exact List.Sublist.refl []
  | cons group groups ih =>
      rw [rounds, List.map_append, List.flatMap_cons]
      exact (serve_group_desks desks accepts opens group queue).append (ih _)

theorem rounds_increase (groups : List Group) (queue : List Item) (apart : Apart accepts (groups.flatMap desks)) :
    ((rounds desks accepts opens groups queue).map Service.item).Pairwise fun first second =>
      deskOf accepts (groups.flatMap desks) first < deskOf accepts (groups.flatMap desks) second := by
  have increase := desks_increase (groups.flatMap desks)
    ((rounds desks accepts opens groups queue).map fun served => (served.desk, served.item)) apart
    (by rw [List.map_map]; exact rounds_desks desks accepts opens groups queue)
    (by
      intro pair member
      obtain ⟨served, there, rfl⟩ := List.mem_map.mp member
      exact (rounds_sound desks accepts opens groups queue served there).2.2)
  rwa [List.map_map] at increase

theorem rounds_nil (groups : List Group) : rounds desks accepts opens groups [] = [] :=
  List.map_eq_nil_iff.mp (List.prefix_nil.mp (rounds_items desks accepts opens groups []))

theorem rounds_append (first second : List Group) (queue : List Item) :
    rounds desks accepts opens (first ++ second) queue =
      rounds desks accepts opens first queue ++
        rounds desks accepts opens second (queue.drop (rounds desks accepts opens first queue).length) := by
  induction first generalizing queue with
  | nil => rfl
  | cons group first ih =>
      rw [List.cons_append, rounds, rounds, ih, List.append_assoc, List.length_append, List.drop_drop]

end Rounds

section Leaders

def Orderly (groups : List Group) (queue : List Item) : Prop :=
  queue.Pairwise fun first second => groupOf desks accepts groups first ≤ groupOf desks accepts groups second

variable {desks accepts}

theorem group_of_here (group : Group) (groups : List Group) (item : Item)
    (here : inGroup desks accepts group item = true) : groupOf desks accepts (group :: groups) item = 0 := by
  simp [groupOf, List.findIdx_cons, here]

theorem group_of_later (group : Group) (groups : List Group) (item : Item)
    (later : ¬ inGroup desks accepts group item = true) :
    groupOf desks accepts (group :: groups) item = groupOf desks accepts groups item + 1 := by
  simp [groupOf, List.findIdx_cons, later]

theorem group_of_zero (group : Group) (groups : List Group) (item : Item) :
    groupOf desks accepts (group :: groups) item = 0 ↔ inGroup desks accepts group item = true := by
  by_cases here : inGroup desks accepts group item = true
  · exact iff_of_true (group_of_here group groups item here) here
  · rw [group_of_later group groups item here]
    exact iff_of_false (Nat.succ_ne_zero _) here

theorem desk_of_here (group : Group) (more : List Desk) (item : Item)
    (here : inGroup desks accepts group item = true) :
    deskOf accepts (desks group ++ more) item = deskOf accepts (desks group) item := by
  have inside : deskOf accepts (desks group) item < (desks group).length :=
    (desk_of_lt (desks group) item).mpr (List.any_eq_true.mp here)
  unfold deskOf at *
  rw [List.findIdx_append, if_pos inside]

theorem desk_of_later (group : Group) (more : List Desk) (item : Item)
    (later : ¬ inGroup desks accepts group item = true) :
    deskOf accepts (desks group ++ more) item = deskOf accepts more item + (desks group).length := by
  have outside : ¬ deskOf accepts (desks group) item < (desks group).length :=
    fun inside => later (List.any_eq_true.mpr ((desk_of_lt (desks group) item).mp inside))
  unfold deskOf at *
  rw [List.findIdx_append, if_neg outside]

theorem orderly_none (group : Group) (groups : List Group) (head : Item) (queue : List Item)
    (orderly : Orderly desks accepts (group :: groups) (head :: queue))
    (other : ¬ inGroup desks accepts group head = true) :
    ∀ item ∈ head :: queue, ¬ inGroup desks accepts group item = true := by
  refine List.forall_mem_cons.mpr ⟨other, fun item member here => other ?_⟩
  have before := (List.pairwise_cons.mp orderly).1 item member
  rw [group_of_here group groups item here] at before
  exact (group_of_zero group groups head).mp (Nat.le_zero.mp before)

theorem orderly_later (group : Group) (groups : List Group) (queue : List Item)
    (orderly : Orderly desks accepts (group :: groups) queue)
    (none_here : ∀ item ∈ queue, ¬ inGroup desks accepts group item = true) :
    Orderly desks accepts groups queue := by
  refine orderly.imp_of_mem fun {first second} first_in second_in before => ?_
  rw [group_of_later group groups first (none_here first first_in),
    group_of_later group groups second (none_here second second_in)] at before
  exact Nat.le_of_succ_le_succ before

theorem orderly_split (group : Group) (groups : List Group) (queue : List Item)
    (orderly : Orderly desks accepts (group :: groups) queue) :
    ∃ here later, queue = here ++ later ∧ (∀ item ∈ here, inGroup desks accepts group item = true) ∧
      ∀ item ∈ later, ¬ inGroup desks accepts group item = true := by
  induction queue with
  | nil => exact ⟨[], [], rfl, fun _ absent => (nomatch absent), fun _ absent => (nomatch absent)⟩
  | cons item queue ih =>
      by_cases first : inGroup desks accepts group item = true
      · obtain ⟨here, later, rfl, all, none_left⟩ := ih (List.pairwise_cons.mp orderly).2
        exact ⟨item :: here, later, rfl, List.forall_mem_cons.mpr ⟨first, all⟩, none_left⟩
      · exact ⟨[], item :: queue, rfl, fun _ absent => (nomatch absent),
          orderly_none group groups item queue orderly first⟩

theorem leader_head (group : Group) (groups : List Group) (head : Item) (queue : List Item) (item : Item)
    (orderly : Orderly desks accepts (group :: groups) (head :: queue)) (member : item ∈ head :: queue)
    (here : inGroup desks accepts group item = true) :
    inGroup desks accepts group head = true ∧
      leader desks accepts (group :: groups) (head :: queue) item = some head := by
  have first : inGroup desks accepts group head = true := by
    by_contra other
    exact orderly_none group groups head queue orderly other item member here
  refine ⟨first, ?_⟩
  unfold leader
  rw [group_of_here group groups item here]
  exact List.find?_cons_of_pos (by rw [group_of_here group groups head first]; rfl)

theorem leader_later (group : Group) (groups : List Group) (front waiting : List Item) (item : Item)
    (front_here : ∀ other ∈ front, inGroup desks accepts group other = true)
    (none_here : ∀ other ∈ waiting, ¬ inGroup desks accepts group other = true) (member : item ∈ waiting) :
    leader desks accepts (group :: groups) (front ++ waiting) item = leader desks accepts groups waiting item := by
  have place := group_of_later group groups item (none_here item member)
  have passed : (front.find? fun other => groupOf desks accepts (group :: groups) other ==
      groupOf desks accepts (group :: groups) item) = none := by
    refine List.find?_eq_none.mpr fun other there same => ?_
    rw [group_of_here group groups other (front_here other there), place] at same
    exact absurd (beq_iff_eq.mp same) (Nat.succ_ne_zero _).symm
  unfold leader
  rw [List.find?_append, passed, Option.none_or]
  refine List.find?_congr fun other there => ?_
  rw [place, group_of_later group groups other (none_here other there)]
  exact Bool.eq_iff_iff.mpr (by simp)

theorem rounds_stuck (groups : List Group) (head : Item) (queue : List Item)
    (missed : ∀ group ∈ groups, ¬ inGroup desks accepts group head = true) :
    rounds desks accepts opens groups (head :: queue) = [] := by
  cases all : rounds desks accepts opens groups (head :: queue) with
  | nil => rfl
  | cons served rest =>
      have member : served ∈ rounds desks accepts opens groups (head :: queue) := all ▸ List.mem_cons_self
      have front := rounds_items desks accepts opens groups (head :: queue)
      rw [all, List.map_cons, List.cons_prefix_cons] at front
      obtain ⟨group_in, desk_in, accepted⟩ := rounds_sound desks accepts opens groups (head :: queue) served member
      rw [front.1] at accepted
      exact absurd (List.any_eq_true.mpr ⟨served.desk, desk_in, accepted⟩) (missed served.group group_in)

-- After a round of the first group either some of its items are left, and the
-- queue stands still, or all the queue waits for the other groups.
theorem rounds_later (group : Group) (groups : List Group) (waiting : List Item)
    (apart : Apart accepts ((group :: groups).flatMap desks))
    (orderly : Orderly desks accepts (group :: groups) waiting) :
    rounds desks accepts opens groups waiting = [] ∨
      ∀ item ∈ waiting, ¬ inGroup desks accepts group item = true := by
  cases waiting with
  | nil => exact .inr fun _ absent => (nomatch absent)
  | cons head queue =>
      by_cases left : inGroup desks accepts group head = true
      · refine .inl (rounds_stuck opens groups head queue fun other other_in there => ?_)
        obtain ⟨first, first_in, accepted⟩ := List.any_eq_true.mp left
        obtain ⟨second, second_in, twice⟩ := List.any_eq_true.mp there
        rw [List.flatMap_cons] at apart
        exact (List.pairwise_append.mp apart).2.2 first first_in second
          (List.mem_flatMap.mpr ⟨other, other_in, second_in⟩) head ⟨accepted, twice⟩
      · exact .inr (orderly_none group groups head queue orderly left)

theorem rounds_token (groups : List Group) (queue : List Item) (apart : Apart accepts (groups.flatMap desks))
    (orderly : Orderly desks accepts groups queue) :
    ∀ served ∈ rounds desks accepts opens groups queue,
      (leader desks accepts groups queue served.item).bind opens = some served.token := by
  induction groups generalizing queue with
  | nil => exact fun served member => nomatch member
  | cons group groups ih =>
      intro served member
      obtain ⟨whole, all_here⟩ := serve_group_front desks accepts opens group queue
      have items := (serve_group_items desks accepts opens group queue).subset
      rcases List.mem_append.mp member with now | later
      · obtain ⟨_, _, _, opened⟩ := serve_group_sound desks accepts opens group queue served now
        have item_in := List.mem_map_of_mem (f := Service.item) now
        cases queue with
        | nil => cases opened
        | cons head queue =>
            rw [(leader_head group groups head queue served.item orderly (items item_in)
              (all_here served.item item_in)).2]
            exact opened
      · have rest : Orderly desks accepts (group :: groups)
            (queue.drop (serveGroup desks accepts opens group queue).length) :=
          orderly.sublist (List.drop_sublist _ _)
        have item_in := (rounds_items desks accepts opens groups _).subset
          (List.mem_map_of_mem (f := Service.item) later)
        rcases rounds_later opens group groups _ apart rest with stuck | none_here
        · rw [stuck] at later
          cases later
        · rw [whole, leader_later group groups _ _ served.item all_here none_here item_in]
          exact ih _ (List.pairwise_append.mp apart).2.1 (orderly_later group groups _ rest none_here) served later

theorem serve_group_reaches (group : Group) (here rest : List Item)
    (all_here : ∀ item ∈ here, inGroup desks accepts group item = true)
    (increasing : here.Pairwise fun first second =>
      deskOf accepts (desks group) first < deskOf accepts (desks group) second)
    (opened : ∀ head ∈ here.head?, (opens head).isSome) :
    here.length ≤ (serveGroup desks accepts opens group (here ++ rest)).length := by
  cases here with
  | nil => exact Nat.zero_le _
  | cons head others =>
      obtain ⟨token, token_of⟩ := Option.isSome_iff_exists.mp (opened head rfl)
      have opening : (head :: others ++ rest).head?.bind opens = some token := token_of
      have placed : ∀ item ∈ head :: others, deskOf accepts (desks group) item < (desks group).length :=
        fun item member => (desk_of_lt (desks group) item).mpr (List.any_eq_true.mp (all_here item member))
      rw [serveGroup, opening, List.length_map]
      exact serve_reaches (desks group) (head :: others) rest increasing placed

theorem serve_group_le (group : Group) (here rest : List Item) (next : Item)
    (other : ¬ inGroup desks accepts group next = true) :
    (serveGroup desks accepts opens group (here ++ next :: rest)).length ≤ here.length := by
  refine Nat.le_of_not_lt fun more => ?_
  obtain ⟨_, served_here⟩ := serve_group_front desks accepts opens group (here ++ next :: rest)
  have reaches : here ++ [next] <+: (serveGroup desks accepts opens group (here ++ next :: rest)).map Service.item := by
    refine List.prefix_of_prefix_length_le ⟨rest, by simp⟩ (serve_group_items desks accepts opens group _) ?_
    rw [List.length_map, List.length_append]
    exact more
  exact other (served_here next (reaches.subset (List.mem_append_right here List.mem_cons_self)))

theorem rounds_reaches (groups : List Group) (front back : List Item)
    (apart : Apart accepts (groups.flatMap desks)) (orderly : Orderly desks accepts groups (front ++ back))
    (increasing : front.Pairwise fun first second =>
      deskOf accepts (groups.flatMap desks) first < deskOf accepts (groups.flatMap desks) second)
    (located : ∀ item ∈ front, ∃ desk ∈ groups.flatMap desks, accepts desk item = true)
    (opened : ∀ item ∈ front, ((leader desks accepts groups (front ++ back) item).bind opens).isSome) :
    front.length ≤ (rounds desks accepts opens groups (front ++ back)).length := by
  induction groups generalizing front with
  | nil =>
      cases front with
      | nil => exact Nat.zero_le _
      | cons item front =>
          obtain ⟨desk, absent, _⟩ := located item List.mem_cons_self
          cases absent
  | cons group groups ih =>
      obtain ⟨here, later, rfl, all_here, none_later⟩ :=
        orderly_split group groups front (orderly.sublist (List.sublist_append_left front back))
      rw [List.append_assoc] at orderly opened ⊢
      rw [List.flatMap_cons] at increasing located
      obtain ⟨increasing_here, increasing_later, _⟩ := List.pairwise_append.mp increasing
      have enough := serve_group_reaches opens group here (later ++ back) all_here
        (increasing_here.imp_of_mem fun {first second} first_in second_in less => by
          rwa [desk_of_here group _ first (all_here first first_in),
            desk_of_here group _ second (all_here second second_in)] at less)
        fun head first => by
          obtain ⟨others, rfl⟩ := List.head?_eq_some_iff.mp (Option.mem_def.mp first)
          have opening := opened head (List.mem_append_left later List.mem_cons_self)
          have leads := (leader_head group groups head (others ++ (later ++ back)) head orderly List.mem_cons_self
            (all_here head List.mem_cons_self)).2
          rw [List.cons_append, leads] at opening
          exact opening
      rw [rounds, List.length_append, List.length_append]
      cases later with
      | nil => exact Nat.le_trans enough (Nat.le_add_right _ _)
      | cons next others =>
          have exactly := Nat.le_antisymm
            (serve_group_le opens group here (others ++ back) next (none_later next List.mem_cons_self)) enough
          have orderly_rest := (List.pairwise_append.mp orderly).2.1
          have none_here := orderly_none group groups next (others ++ back) orderly_rest
            (none_later next List.mem_cons_self)
          rw [List.cons_append, exactly, List.drop_left]
          refine Nat.add_le_add_left (ih (next :: others) (List.pairwise_append.mp apart).2.1
            (orderly_later group groups _ orderly_rest none_here)
            (increasing_later.imp_of_mem fun {first second} first_in second_in less => ?_)
            (fun item member => ?_) fun item member => ?_) _
          · rw [desk_of_later group _ first (none_later first first_in),
              desk_of_later group _ second (none_later second second_in)] at less
            exact Nat.lt_of_add_lt_add_right less
          · obtain ⟨desk, desk_in, accepted⟩ := located item (List.mem_append_right here member)
            refine ⟨desk, (List.mem_append.mp desk_in).resolve_left fun own => ?_, accepted⟩
            exact none_later item member (List.any_eq_true.mpr ⟨desk, own, accepted⟩)
          · have opening := opened item (List.mem_append_right here member)
            rwa [leader_later group groups here (next :: others ++ back) item all_here none_here
              (List.mem_append_left back member)] at opening

theorem filter_own [DecidableEq Item] (all : List (Service Group Desk Item Token))
    (distinct : (all.map Service.item).Nodup) (served : Service Group Desk Item Token) (member : served ∈ all) :
    all.filter (fun other => other.item = served.item) = [served] := by
  obtain ⟨before, after, rfl⟩ := List.append_of_mem member
  rw [List.map_append, List.map_cons, List.nodup_append, List.nodup_cons] at distinct
  obtain ⟨_, ⟨fresh_after, _⟩, fresh_before⟩ := distinct
  have none_before : before.filter (fun other => other.item = served.item) = [] :=
    List.filter_eq_nil_iff.mpr fun other other_in same =>
      fresh_before other.item (List.mem_map_of_mem other_in) served.item List.mem_cons_self (of_decide_eq_true same)
  have none_after : after.filter (fun other => other.item = served.item) = [] :=
    List.filter_eq_nil_iff.mpr fun other other_in same =>
      fresh_after (of_decide_eq_true same ▸ List.mem_map_of_mem other_in)
  rw [List.filter_append, List.filter_cons, if_pos (decide_eq_true rfl), none_before, none_after, List.nil_append]

-- An item is served once, with its own token, if and only if the queue moves on
-- up to it and the first item for its group has that token.
theorem served_iff [DecidableEq Item] (groups : List Group) (before after : List Item) (item : Item) (token : Token)
    (apart : Apart accepts (groups.flatMap desks)) (orderly : Orderly desks accepts groups (before ++ item :: after))
    (distinct : (before ++ item :: after).Nodup)
    (located : ∀ other ∈ before ++ [item], ∃ desk ∈ groups.flatMap desks, accepts desk other = true) :
    (∃ group desk, (rounds desks accepts opens groups (before ++ item :: after)).filter
        (fun served => served.item = item) = [⟨group, desk, token, item⟩]) ↔
      (before ++ [item]).Pairwise (fun first second =>
        deskOf accepts (groups.flatMap desks) first < deskOf accepts (groups.flatMap desks) second) ∧
      (∀ other ∈ before ++ [item],
        ((leader desks accepts groups (before ++ item :: after) other).bind opens).isSome) ∧
      (leader desks accepts groups (before ++ item :: after) item).bind opens = some token := by
  have whole : before ++ item :: after = before ++ [item] ++ after := by simp
  have items := rounds_items desks accepts opens groups (before ++ item :: after)
  have tokens := rounds_token opens groups (before ++ item :: after) apart orderly
  constructor
  · rintro ⟨group, desk, once⟩
    have member : (⟨group, desk, token, item⟩ : Service Group Desk Item Token) ∈
        rounds desks accepts opens groups (before ++ item :: after) :=
      (List.mem_filter.mp (once ▸ List.mem_cons_self)).1
    have reached :
        before ++ [item] <+: (rounds desks accepts opens groups (before ++ item :: after)).map Service.item := by
      rcases List.prefix_or_prefix_of_prefix items ⟨after, whole.symm⟩ with shorter | longer
      · rcases List.prefix_concat_iff.mp shorter with same | inside
        · exact same ▸ List.prefix_refl _
        · have early := inside.subset (List.mem_map_of_mem (f := Service.item) member)
          exact absurd rfl ((List.nodup_append.mp distinct).2.2 item early item List.mem_cons_self)
      · exact longer
    refine ⟨(rounds_increase desks accepts opens groups _ apart).sublist reached.sublist, fun other early => ?_,
      tokens _ member⟩
    obtain ⟨served, served_in, rfl⟩ := List.mem_map.mp (reached.subset early)
    rw [tokens served served_in]
    rfl
  · rintro ⟨increasing, opened, own⟩
    have enough := rounds_reaches opens groups (before ++ [item]) after apart (whole ▸ orderly) increasing located
      (whole ▸ opened)
    rw [← whole] at enough
    have reached := List.prefix_of_prefix_length_le ⟨after, whole.symm⟩ items (by rwa [List.length_map])
    obtain ⟨served, served_in, same⟩ := List.mem_map.mp
      (reached.subset (List.mem_append_right before List.mem_cons_self))
    have shape : served = ⟨served.group, served.desk, token, item⟩ := by
      have given := tokens served served_in
      rw [same, own] at given
      rw [← same, Option.some.inj given]
    refine ⟨served.group, served.desk, ?_⟩
    rw [← shape]
    have once := filter_own _ (items.sublist.nodup distinct) served served_in
    rwa [same] at once

end Leaders

end Serving

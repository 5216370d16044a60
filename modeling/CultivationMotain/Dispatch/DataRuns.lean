import CultivationMotain.Dispatch.DataRegions
import CultivationMotain.Library.Runs

set_option autoImplicit false

namespace CultivationMotain.Dispatch.DataObjects

open ReferenceCounts Weights

-- A call by a client. garbage is what the memory holds that the call gets from
-- malloc.
inductive Event where
  | create (buffer : Option (List UInt8)) (destructor : Destructor)
  | createAlloc (bytes : List UInt8)
  | concat (dd1 dd2 : Nat)
  | subrange (dd offset length : Nat)
  | map (dd : Nat) (garbage : Nat → UInt8)
  | copyRegion (dd location : Nat)
  | flatten (dd : Nat) (garbage : Nat → UInt8)
  | retain (dd : Nat)
  | release (dd : Nat)

-- handles are the references that the clients hold.
structure Session where
  store : Store
  handles : List Nat
deriving DecidableEq, Repr

def begun : Session := { store := created, handles := [] }

def dispatchDataGetSize (store : Store) (dd : Nat) : Nat := (values store dd).elim 0 DataS.size

def Session.holds (session : Session) (dd : Nat) : Bool := dd = dispatchDataEmpty ∨ dd ∈ session.handles

-- Clients use the objects they hold, release what they own, and keep to sizes
-- that a size_t has room for. The inline destructor is no block to be called,
-- which it would be for an empty buffer.
def Session.allows (session : Session) : Event → Bool
  | .create buffer destructor =>
      (buffer.getD []).length < sizeLimit ∧ ¬(destructor = .inline ∧ buffer.getD [] = [])
  | .createAlloc bytes => bytes.length < sizeLimit
  | .concat dd1 dd2 => session.holds dd1 ∧ session.holds dd2 ∧
      dispatchDataGetSize session.store dd1 + dispatchDataGetSize session.store dd2 < sizeLimit
  | .subrange dd _ _ => session.holds dd
  | .map dd _ => session.holds dd
  | .copyRegion dd _ => session.holds dd
  | .flatten dd _ => session.holds dd
  | .retain dd => session.holds dd
  | .release dd => dd ∈ session.handles

def Session.answered (session : Session) (next : Store) (dd : Nat) : Session where
  store := next
  handles := dd :: session.handles

-- none: the call crashes.
def perform (session : Session) : Event → Option Session
  | .create buffer destructor =>
      let made := dispatchDataCreate session.store buffer destructor
      some (session.answered made.1 made.2)
  | .createAlloc bytes =>
      let made := dispatchDataCreateAlloc session.store bytes
      some (session.answered made.1 made.2)
  | .concat dd1 dd2 =>
      (dispatchDataCreateConcat session.store dd1 dd2).map fun made => session.answered made.1 made.2
  | .subrange dd offset length =>
      (dispatchDataCreateSubrange session.store dd offset length).map fun made => session.answered made.1 made.2
  | .map dd garbage =>
      (dispatchDataCreateMap garbage session.store dd).map fun made => session.answered made.1 made.2.1
  | .copyRegion dd location =>
      (dispatchDataCopyRegion session.store dd location).map fun made => session.answered made.1 made.2.1
  | .flatten dd garbage =>
      (getFlattenedBytes garbage session.store dd).map fun made => { session with store := made.1 }
  | .retain dd => (dispatchRetain session.store dd).map fun next => session.answered next dd
  | .release dd =>
      (dispatchRelease session.store dd).map fun next => { store := next, handles := session.handles.erase dd }

def step (session : Session) (event : Event) : Option Session :=
  if session.allows event then perform session event else none

def heldBy (session : Session) (dd : Nat) : Int := session.handles.count dd

structure Valid (session : Session) : Prop where
  sound : Sound session.store
  accounted : Accounted targets (heldBy session) session.store

-- The region with the location; nothing behind the last one.
def regionAt : List (Nat × List UInt8) → Nat → List UInt8
  | [], _ => []
  | (_, bytes) :: rest, location =>
      if location < bytes.length then bytes else regionAt rest (location - bytes.length)

-- A call has returned an object with the bytes.
def Returned (session next : Session) (bytes : List UInt8) : Prop :=
  ∃ dd, next.handles = dd :: session.handles ∧ contents next.store dd = bytes

def Answer (session next : Session) : Event → Prop
  | .create buffer _ => Returned session next (buffer.getD [])
  | .createAlloc bytes => Returned session next bytes
  | .concat dd1 dd2 => Returned session next (contents session.store dd1 ++ contents session.store dd2)
  | .subrange dd offset length => Returned session next (slice (contents session.store dd) offset length)
  | .map dd _ => Returned session next (contents session.store dd)
  | .copyRegion dd location => Returned session next (regionAt (regions session.store dd) location)
  | .flatten _ _ => next.handles = session.handles
  | .retain dd => Returned session next (contents session.store dd)
  | .release dd => next.handles = session.handles.erase dd

-- What a client holds stays as it is.
def Kept (session next : Session) : Prop :=
  ∀ dd, session.holds dd = true → next.holds dd = true → contents next.store dd = contents session.store dd

-- The blocks that came with a call.
def givenBlock (name : Nat) : Event → Nat
  | .create _ destructor => if destructor = .block name then 1 else 0
  | _ => 0

-- What every call does.
structure Outcome (session : Session) (event : Event) (next : Session) : Prop where
  valid : Valid next
  answer : Answer session next event
  kept : Kept session next
  blocks : ∀ name, total (blockMeasure name) next.store =
    total (blockMeasure name) session.store + givenBlock name event

theorem region_at (before after : List (Nat × List UInt8)) (region : Nat × List UInt8) (location : Nat)
    (past : (before.flatMap Prod.snd).length ≤ location)
    (inside : location < (before.flatMap Prod.snd).length + region.2.length) :
    regionAt (before ++ region :: after) location = region.2 := by
  induction before generalizing location with
  | nil =>
      rw [List.flatMap_nil, List.length_nil, Nat.zero_add] at inside
      rw [List.nil_append, regionAt, if_pos inside]
  | cons first rest ih =>
      rw [List.flatMap_cons, List.length_append] at past inside
      rw [List.cons_append, regionAt, if_neg (by omega)]
      exact ih _ (by omega) (by omega)

theorem region_at_end (parts : List (Nat × List UInt8)) (location : Nat)
    (past : (parts.flatMap Prod.snd).length ≤ location) : regionAt parts location = [] := by
  induction parts generalizing location with
  | nil => rfl
  | cons first rest ih =>
      rw [List.flatMap_cons, List.length_append] at past
      rw [regionAt, if_neg (by omega)]
      exact ih _ (by omega)

theorem begun_valid : Valid begun := by
  have immortal : ∀ dd cell, read created dd = some cell → dd = dispatchDataEmpty ∧ cell = ⟨none, emptyData⟩ := by
    intro dd cell found
    cases dd with
    | zero => exact ⟨rfl, (Option.some.inj found).symm⟩
    | succ dd => cases found
  refine ⟨⟨rfl, ?_⟩, ⟨?_, ?_, ?_⟩⟩
  · intro dd data present nonempty
    obtain ⟨cell, found, -⟩ := read_of_values created dd data present
    exact absurd (immortal dd cell found).1 nonempty
  · intro dd cell count found counted
    rw [(immortal dd cell found).2] at counted
    cases counted
  · intro dd absent
    rfl
  · intro dd cell found target member
    rw [(immortal dd cell found).2] at member
    cases member

theorem held_nonneg (session : Session) (dd : Nat) : 0 ≤ heldBy session dd := Int.natCast_nonneg _

theorem held_live (session : Session) (valid : Valid session) (dd : Nat) (held : session.holds dd = true) :
    ∃ data, values session.store dd = some data := by
  rcases of_decide_eq_true held with rfl | member
  · exact ⟨emptyData, empty_values session.store valid.sound⟩
  · cases found : read session.store dd with
    | none =>
        have nobody := valid.accounted.gone dd found
        have positive : 0 < session.handles.count dd := List.count_pos_iff.mpr member
        rw [heldBy] at nobody
        omega
    | some cell => exact ⟨cell.value, by rw [values, found, Option.map_some]⟩

-- What a release leaves is as it was, since it leaves what that refers to.
theorem sound_within (held : Nat → Int) (store next : Store) (sound : Sound store)
    (accounted : Accounted targets held next) (nonneg : ∀ dd, 0 ≤ held dd) (smaller : Within next store) :
    Sound next ∧ ∀ dd data, values next dd = some data → contents next dd = contents store dd := by
  have leaves : ∀ dd data, values next dd = some data → ∀ record ∈ data.records,
      values next record.dataObject = values store record.dataObject := by
    intro dd data present record member
    obtain ⟨leaf, left⟩ := targets_live targets held next accounted nonneg dd record.dataObject data present
      (List.mem_map_of_mem member)
    rw [left, values_of_within smaller _ leaf left]
  refine ⟨⟨smaller.immortal _ _ sound.empty, ?_⟩, ?_⟩
  · intro dd data present nonempty
    exact formed_same store next data (leaves dd data present)
      (sound.formed dd data (values_of_within smaller dd data present) nonempty)
  · intro dd data present
    rw [contents_values next dd data present, contents_values store dd data (values_of_within smaller dd data present)]
    exact data_same store next data (leaves dd data present)

section Calls

variable (session : Session) (valid : Valid session)

include valid

theorem made_outcome (event : Event) (next : Store) (dd : Nat) (bytes : List UInt8) (given : Destructor)
    (made : Made (heldBy session) session.store next dd bytes given)
    (answer : Returned session (session.answered next dd) bytes → Answer session (session.answered next dd) event)
    (blocks : ∀ name, givenBlock name event = if given = .block name then 1 else 0) :
    Outcome session event (session.answered next dd) := by
  refine ⟨⟨made.sound, accounted_congr targets made.accounted fun other => ?_⟩, answer ⟨dd, rfl, made.made⟩, ?_, ?_⟩
  · rw [heldBy, heldBy, Session.answered]
    by_cases here : other = dd
    · subst here
      rw [if_pos rfl, List.count_cons_self]
      rfl
    · rw [if_neg here, List.count_cons_of_ne (Ne.symm here), Int.add_zero]
  · intro other held _
    obtain ⟨data, present⟩ := held_live session valid other held
    exact contents_kept session.store next valid.sound made.kept other data present
  · intro name
    rw [blocks]
    exact made.blocks name

theorem release_outcome (dd : Nat) (member : dd ∈ session.handles) :
    ∃ next, perform session (.release dd) = some next ∧ Outcome session (.release dd) next := by
  obtain ⟨data, present⟩ := held_live session valid dd (decide_eq_true (Or.inr member))
  obtain ⟨cell, found, -⟩ := read_of_values session.store dd data present
  have positive : 0 < heldBy session dd := Int.natCast_pos.mpr (List.count_pos_iff.mpr member)
  obtain ⟨next, released, accounted, smaller⟩ := release_accounted targets (dd + 1) (heldBy session) session.store dd
    cell valid.accounted (held_nonneg session) positive found (Nat.lt_succ_self dd)
  let after : Session := { store := next, handles := session.handles.erase dd }
  have counted : Accounted targets (heldBy after) next := by
    refine accounted_congr targets accounted fun other => ?_
    rw [heldBy, heldBy]
    by_cases here : other = dd
    · subst here
      have some_held := List.count_pos_iff.mpr member
      rw [if_pos rfl, List.count_erase_self]
      omega
    · rw [if_neg here, List.count_erase_of_ne here, Int.add_zero]
  obtain ⟨sound, same⟩ := sound_within (heldBy after) session.store next valid.sound counted (held_nonneg after) smaller
  have left : Valid after := ⟨sound, counted⟩
  refine ⟨after, ?_, left, rfl, ?_, ?_⟩
  · rw [perform, dispatchRelease, released, Option.map_some]
  · intro other _ held
    obtain ⟨kept, there⟩ := held_live after left other held
    exact same other kept there
  · exact fun name => release_total targets (blockMeasure name) (dd + 1) session.store next dd released

theorem perform_outcome (event : Event) (allowed : session.allows event = true) :
    ∃ next, perform session event = some next ∧ Outcome session event next := by
  have sound := valid.sound
  have accounted := valid.accounted
  have nothing : ∀ name : Nat, 0 = if Destructor.none = .block name then 1 else 0 := fun _ => rfl
  cases event with
  | create buffer destructor =>
      have made := create_made (heldBy session) session.store sound accounted buffer destructor
        (of_decide_eq_true allowed).1
      exact ⟨_, rfl, made_outcome session valid _ _ _ _ destructor made id fun _ => rfl⟩
  | createAlloc bytes =>
      have made := create_alloc_made (heldBy session) session.store sound accounted bytes (of_decide_eq_true allowed)
      exact ⟨_, rfl, made_outcome session valid _ _ _ _ .none made id nothing⟩
  | concat dd1 dd2 =>
      obtain ⟨held1, held2, bounded⟩ := of_decide_eq_true allowed
      obtain ⟨data1, present1⟩ := held_live session valid dd1 held1
      obtain ⟨data2, present2⟩ := held_live session valid dd2 held2
      rw [dispatchDataGetSize, dispatchDataGetSize, present1, present2] at bounded
      obtain ⟨next, dd, ran, made⟩ := concat_made (heldBy session) session.store sound accounted dd1 dd2 data1 data2
        present1 present2 bounded
      exact ⟨_, by rw [perform, ran, Option.map_some], made_outcome session valid _ _ _ _ .none made id nothing⟩
  | subrange dd offset length =>
      obtain ⟨data, present⟩ := held_live session valid dd allowed
      obtain ⟨next, made_dd, ran, made⟩ := create_subrange_made (heldBy session) session.store sound accounted (dd + 1)
        dd data offset length present (Nat.lt_succ_self dd)
      exact ⟨_, by rw [perform, dispatchDataCreateSubrange, ran, Option.map_some],
        made_outcome session valid _ _ _ _ .none made id nothing⟩
  | map dd garbage =>
      obtain ⟨data, present⟩ := held_live session valid dd allowed
      obtain ⟨next, made_dd, buffer, ran, -, made⟩ := create_map_made (heldBy session) session.store sound accounted
        garbage dd data present
      exact ⟨_, by rw [perform, ran, Option.map_some], made_outcome session valid _ _ _ _ .none made id nothing⟩
  | copyRegion dd location =>
      obtain ⟨data, present⟩ := held_live session valid dd allowed
      by_cases inside : location < data.size
      · obtain ⟨next, made_dd, before, region, after, parts, past, within, ran, made⟩ :=
          copy_region_made (heldBy session) session.store sound accounted dd data location present inside
        refine ⟨_, by rw [perform, ran, Option.map_some],
          made_outcome session valid _ _ _ _ .none made (fun returned => ?_) nothing⟩
        rw [Answer, parts, region_at before after region location past within]
        exact returned
      · have made := empty_made (heldBy session) session.store sound accounted
        refine ⟨_, ?_, made_outcome session valid _ _ _ _ .none made (fun returned => ?_) nothing⟩
        · rw [perform, dispatchDataCopyRegion, present, Option.bind_some, if_pos (Nat.le_of_not_lt inside),
            Option.map_some]
        · rw [Answer, region_at_end]
          · exact returned
          · rw [regions_bytes session.store sound dd data present, contents_length session.store sound dd data present]
            exact Nat.le_of_not_lt inside
  | flatten dd garbage =>
      obtain ⟨data, present⟩ := held_live session valid dd allowed
      obtain ⟨next, buffer, ran, -, next_sound, counted, kept, quiet⟩ :=
        flattened_bytes (heldBy session) session.store sound accounted garbage dd data present
      refine ⟨{ session with store := next }, by rw [perform, ran, Option.map_some], ⟨next_sound, counted⟩, rfl, ?_,
        quiet⟩
      intro other held _
      obtain ⟨old, there⟩ := held_live session valid other held
      exact (kept other old there).1
  | retain dd =>
      obtain ⟨data, present⟩ := held_live session valid dd allowed
      obtain ⟨next, ran, made⟩ := retain_made (heldBy session) session.store sound accounted dd data present
      exact ⟨_, by rw [perform, ran, Option.map_some], made_outcome session valid _ _ _ _ .none made id nothing⟩
  | release dd => exact release_outcome session valid dd (of_decide_eq_true allowed)

theorem step_outcome (event : Event) (next : Session) (taken : step session event = some next) :
    Outcome session event next := by
  by_cases allowed : session.allows event = true
  · rw [step, if_pos allowed] at taken
    obtain ⟨other, performed, outcome⟩ := perform_outcome session valid event allowed
    exact Option.some.inj (performed.symm.trans taken) ▸ outcome
  · rw [step, if_neg allowed] at taken
    cases taken

end Calls

theorem run_valid (events : List Event) (session : Session) (ran : Runs.run step begun events = some session) :
    Valid session :=
  Runs.run_invariant step Valid (fun _ => True)
    (fun before event _ valid _ taken => (step_outcome before valid event _ taken).valid) begun session events
    (fun _ _ => trivial) ran begun_valid

-- Whatever the clients do, each call returns an object with the right bytes, and
-- the objects that they hold keep theirs.
theorem data_contents (events : List Event) :
    Runs.Steps step (fun session event next => Answer session next event ∧ Kept session next) begun events :=
  Runs.steps_of_invariant step Valid _ (fun session event next valid taken =>
    have outcome := step_outcome session valid event next taken
    ⟨⟨outcome.answer, outcome.kept⟩, outcome.valid⟩) begun events begun_valid

def Referred (session : Session) (dd : Nat) : Prop :=
  session.holds dd = true ∨ ∃ other data, values session.store other = some data ∧ dd ∈ targets data

-- xref_cnt has come to INT_MAX and is left there.
def Saturated (store : Store) (dd : Nat) : Prop :=
  dd ≠ dispatchDataEmpty ∧ ∃ cell, read store dd = some cell ∧ cell.count = none

theorem unsaturated (store : Store)
    (counted : (store.cells.drop 1).all (fun slot => slot.all fun cell => cell.count.isSome) = true) (dd : Nat) :
    ¬Saturated store dd := by
  rintro ⟨nonempty, cell, found, counts⟩
  obtain ⟨index, rfl⟩ : ∃ index, dd = index + 1 := Nat.exists_eq_succ_of_ne_zero nonempty
  have there : some cell ∈ store.cells.drop 1 := by
    refine List.mem_iff_getElem?.mpr ⟨index, ?_⟩
    rw [List.getElem?_drop, Nat.add_comm]
    exact read_slot store (index + 1) cell found
  have some_count := List.all_eq_true.mp counted (some cell) there
  rw [Option.all_some, counts] at some_count
  cases some_count

-- An object is in memory for as long as a client or another object refers to it,
-- and for good once it is saturated.
theorem live_iff_referred (session : Session) (valid : Valid session) (dd : Nat) :
    (∃ data, values session.store dd = some data) ↔ Referred session dd ∨ Saturated session.store dd := by
  constructor
  · rintro ⟨data, present⟩
    obtain ⟨cell, found, rfl⟩ := read_of_values session.store dd data present
    by_cases empty : dd = dispatchDataEmpty
    · exact Or.inl (Or.inl (decide_eq_true (Or.inl empty)))
    · cases counts : cell.count with
      | none => exact Or.inr ⟨empty, cell, found, counts⟩
      | some count =>
          obtain ⟨positive, balance⟩ := valid.accounted.counted dd cell count found counts
          by_cases held : dd ∈ session.handles
          · exact Or.inl (Or.inl (decide_eq_true (Or.inr held)))
          · rw [heldBy, List.count_eq_zero_of_not_mem held] at balance
            obtain ⟨other, holder, there, refers⟩ := exists_pointer targets session.store dd (by omega)
            exact Or.inl (Or.inr ⟨other, holder.value, by rw [values, there, Option.map_some], refers⟩)
  · rintro ((held | ⟨other, data, there, refers⟩) | ⟨-, cell, found, -⟩)
    · exact held_live session valid dd held
    · exact targets_live targets (heldBy session) session.store valid.accounted (held_nonneg session) other dd data
        there refers
    · exact ⟨cell.value, by rw [values, found, Option.map_some]⟩

-- Two buffers, a part that spans them, and every other reference given up.
def spanning : List Event :=
  [.create (some [1, 2, 3]) (.block 7), .create (some [4, 5]) (.block 8), .concat 1 2, .subrange 3 2 2, .release 1,
    .release 2, .release 3]

def spanned : Session := (Runs.run step begun spanning).getD begun

-- The objects in memory that have the block for a destructor.
def liveBlocks (store : Store) (name : Nat) : Nat := weigh (slotWeight (blockMeasure name)) store.cells

theorem destroyed_count (destructor : Destructor) (name : Nat) :
    (destroyBuffer destructor).count (.block name) = if destructor = .block name then 1 else 0 := by
  cases destructor with
  | block other =>
      by_cases same : Destructor.block other = .block name
      · rw [if_pos same, same]
        exact List.count_singleton_self
      · rw [if_neg same, List.count_eq_zero_of_not_mem]
        exact fun member => same (List.mem_singleton.mp member).symm
  | default => rfl
  | free => rfl
  | none => rfl
  | inline => rfl

theorem submitted_count (disposed : List DataS) (name : Nat) :
    (disposed.flatMap dataDispose).count (.block name) = (disposed.map (blockMeasure name)).sum := by
  induction disposed with
  | nil => rfl
  | cons data rest ih =>
      have here : (dataDispose data).count (.block name) = blockMeasure name data := by
        rw [dataDispose, blockMeasure]
        by_cases leaf : data.records = []
        · rw [if_pos leaf, destroyed_count]
          simp [leaf]
        · rw [if_neg leaf, if_neg fun both => leaf both.1]
          rfl
      rw [List.flatMap_cons, List.count_append, ih, here, List.map_cons, List.sum_cons]

-- Each block that came with a buffer is submitted once, when the last reference
-- to its object goes.
theorem data_destructors (events : List Event) (session : Session) (ran : Runs.run step begun events = some session)
    (name : Nat) :
    (submitted session.store).count (.block name) + liveBlocks session.store name =
        (events.map (givenBlock name)).sum ∧
      ((∀ dd ∈ session.handles, dd = dispatchDataEmpty) → (∀ dd, ¬Saturated session.store dd) →
        liveBlocks session.store name = 0) := by
  have valid := run_valid events session ran
  constructor
  · have told := (Runs.run_history step (fun past session => Valid session ∧
      total (blockMeasure name) session.store = (past.map (givenBlock name)).sum)
      (fun past before event next holds taken => by
        have outcome := step_outcome before holds.1 event next taken
        refine ⟨outcome.valid, ?_⟩
        rw [outcome.blocks name, holds.2, List.map_append, List.sum_append, List.map_singleton, List.sum_singleton])
      [] begun session events ran ⟨begun_valid, rfl⟩).2
    rw [List.nil_append, total, ← submitted_count] at told
    rw [← told, submitted, liveBlocks, Nat.add_comm]
  · intro nobody mortal
    rw [liveBlocks, weigh_eq_zero_iff]
    intro slot member
    obtain ⟨dd, there⟩ := List.mem_iff_getElem?.mp member
    cases slot with
    | none => rfl
    | some cell =>
        have found : read session.store dd = some cell := by rw [ReferenceCounts.read, there, Option.join_some]
        have immortal : ∀ other kept, read session.store other = some kept → kept.count = none →
            other = dispatchDataEmpty := by
          intro other kept present counts
          by_contra nonempty
          exact mortal other ⟨nonempty, kept, present, counts⟩
        have empty : ∀ other kept, read session.store other = some kept → other = dispatchDataEmpty →
            kept.value = emptyData := by
          rintro other kept present rfl
          have known := empty_values session.store valid.sound
          rw [values, present, Option.map_some] at known
          exact Option.some.inj known
        have unheld : ∀ other kept, read session.store other = some kept → kept.count ≠ none →
            heldBy session other = 0 := by
          intro other kept present counted
          rw [heldBy, List.count_eq_zero_of_not_mem]
          · rfl
          · intro held
            have global := nobody other held
            have known := valid.sound.empty
            rw [← global, outline, present, Option.map_some] at known
            exact counted (Option.isNone_iff_eq_none.mp (congrArg Prod.snd (Option.some.inj known)))
        have freed := all_freed targets (heldBy session) session.store valid.accounted unheld
          (fun other kept present counts => by
            rw [empty other kept present (immortal other kept present counts)]
            rfl) dd cell found
        have value := empty dd cell found (immortal dd cell found freed)
        rw [slotWeight, Option.elim_some, value]
        rfl

theorem data_destructors_spanning :
    ∃ session, step spanned (.release 4) = some session ∧ submitted session.store = [.block 7, .block 8] ∧
      liveBlocks session.store 8 = 0 := by
  have ran : Runs.run step begun (spanning ++ [.release 4]) = some ((step spanned (.release 4)).getD begun) := by decide
  exact ⟨_, by decide, by decide,
    (data_destructors (spanning ++ [.release 4]) _ ran 8).2 (by decide) (unsaturated _ (by decide))⟩

theorem held_apply {σ : Type} (applier : Applier σ) (session : Session) (valid : Valid session) (dd : Nat)
    (held : session.holds dd = true) (state : σ) :
    dispatchDataApply applier session.store dd state = some (visit applier state 0 (regions session.store dd)) := by
  obtain ⟨data, present⟩ := held_live session valid dd held
  exact apply_visit applier (heldBy session) session.store valid.sound valid.accounted dd data present state

theorem held_regions (session : Session) (valid : Valid session) (dd : Nat) (held : session.holds dd = true) :
    (regions session.store dd).flatMap Prod.snd = contents session.store dd ∧
      ∀ region ∈ regions session.store dd, region.2 ≠ [] := by
  obtain ⟨data, present⟩ := held_live session valid dd held
  exact ⟨regions_bytes session.store valid.sound dd data present,
    regions_nonempty session.store valid.sound dd data present⟩

-- The regions of an object are its bytes in order, and every way to read it
-- agrees with them.
theorem data_regions (events : List Event) (session : Session) (ran : Runs.run step begun events = some session)
    (dd : Nat) (held : session.holds dd = true) :
    (regions session.store dd).flatMap Prod.snd = contents session.store dd ∧
      (∀ region ∈ regions session.store dd, region.2 ≠ []) ∧
      (∀ (σ : Type) (applier : Applier σ) (state : σ),
        dispatchDataApply applier session.store dd state = some (visit applier state 0 (regions session.store dd))) ∧
      ∀ garbage, (∃ next made buffer size, dispatchDataCreateMap garbage session.store dd =
          some (next, made, buffer, size) ∧ buffer.getD [] = contents session.store dd) ∧
        ∃ next buffer, getFlattenedBytes garbage session.store dd = some (next, buffer) ∧
          buffer.getD [] = contents session.store dd := by
  have valid := run_valid events session ran
  obtain ⟨data, present⟩ := held_live session valid dd held
  obtain ⟨bytes, nonempty⟩ := held_regions session valid dd held
  refine ⟨bytes, nonempty, fun σ applier state => held_apply applier session valid dd held state,
    fun garbage => ⟨?_, ?_⟩⟩
  · obtain ⟨next, made, buffer, mapped, bytes, -⟩ := create_map_made (heldBy session) session.store valid.sound
      valid.accounted garbage dd data present
    exact ⟨next, made, buffer, data.size, mapped, bytes⟩
  · obtain ⟨next, buffer, flat, bytes, -⟩ := flattened_bytes (heldBy session) session.store valid.sound valid.accounted
      garbage dd data present
    exact ⟨next, buffer, flat, bytes⟩

theorem data_regions_spanning :
    regions spanned.store 4 = [(1, [3]), (2, [4])] ∧
      dispatchDataApply (fun seen region => (seen ++ [region.offset], true)) spanned.store 4 [] =
        some ([0, 1], true) := by
  have ran : Runs.run step begun spanning = some spanned := by decide
  exact ⟨by decide, (data_regions spanning spanned ran 4 (by decide)).2.2.1 _ _ _⟩

end CultivationMotain.Dispatch.DataObjects

import CultivationMotain.Dispatch.DataOperations

set_option autoImplicit false

namespace CultivationMotain.Dispatch.DataObjects

open ReferenceCounts

theorem find_record (records : List RangeRecord) (offset : Nat) (inside : offset < lengths records) :
    ∃ before first rest inner, findRecord records offset = (first :: rest, inner) ∧
      records = before ++ first :: rest ∧ offset = lengths before + inner ∧ inner < first.length := by
  induction records generalizing offset with
  | nil => exact absurd inside (Nat.not_lt_zero offset)
  | cons record rest ih =>
      by_cases skipped : record.length ≤ offset
      · rw [lengths_cons] at inside
        obtain ⟨before, first, later, inner, found, rfl, split, within⟩ := ih (offset - record.length) (by omega)
        refine ⟨record :: before, first, later, inner, ?_, rfl, ?_, within⟩
        · rw [findRecord, if_pos skipped, found]
        · rw [lengths_cons]
          omega
      · refine ⟨[], record, rest, offset, ?_, rfl, (Nat.zero_add offset).symm, Nat.lt_of_not_le skipped⟩
        rw [findRecord, if_neg skipped]

-- The record with the end is not past the last one, so that the loop does not crash.
theorem count_records (records : List RangeRecord) (count last : Nat) (positive : 0 < last)
    (inside : last ≤ lengths records) :
    ∃ before record after used, countRecords records count last = some (count + before.length + 1, used) ∧
      records = before ++ record :: after ∧ last = lengths before + used ∧ 0 < used ∧ used ≤ record.length := by
  induction records generalizing count last with
  | nil => exact absurd (Nat.lt_of_lt_of_le positive inside) (Nat.lt_irrefl 0)
  | cons record rest ih =>
      by_cases here : last ≤ record.length
      · refine ⟨[], record, rest, last, ?_, rfl, (Nat.zero_add last).symm, positive, here⟩
        rw [countRecords, if_pos here]
        rfl
      · rw [lengths_cons] at inside
        have more : rest ≠ [] := by
          rintro rfl
          rw [lengths, List.map_nil, List.sum_nil] at inside
          omega
        obtain ⟨before, final, after, used, found, rfl, split, some_used, within⟩ :=
          ih (count + 1) (last - record.length) (by omega) (by omega)
        refine ⟨record :: before, final, after, used, ?_, rfl, ?_, some_used, within⟩
        · rw [countRecords, if_neg here, if_neg more, found, List.length_cons]
          exact congrArg (fun total => some (total, used)) (by omega)
        · rw [lengths_cons]
          omega

def advanced (record : RangeRecord) (offset : Nat) : RangeRecord :=
  { record with start := record.start + offset, length := record.length - offset }

def shortened (record : RangeRecord) (used : Nat) : RangeRecord := { record with length := used }

theorem advanced_fits (store : Store) (record : RangeRecord) (offset : Nat) (fits : Fits store record)
    (inside : offset < record.length) :
    Fits store (advanced record offset) ∧
      recordBytes store (advanced record offset) = (recordBytes store record).drop offset := by
  obtain ⟨data, bytes, present, leaf, buffered, sized, within⟩ := fits.leaf
  refine ⟨⟨Nat.sub_pos_of_lt inside, data, bytes, present, leaf, buffered, sized, ?_⟩, ?_⟩
  · dsimp only [advanced]
    omega
  · rw [recordBytes, recordBytes, slice, slice, List.drop_take, List.drop_drop]
    rfl

theorem shortened_fits (store : Store) (record : RangeRecord) (used : Nat) (fits : Fits store record)
    (some_used : 0 < used) (inside : used ≤ record.length) :
    Fits store (shortened record used) ∧
      recordBytes store (shortened record used) = (recordBytes store record).take used := by
  obtain ⟨data, bytes, present, leaf, buffered, sized, within⟩ := fits.leaf
  refine ⟨⟨some_used, data, bytes, present, leaf, buffered, sized,
    Nat.le_trans (Nat.add_le_add_left inside _) within⟩, ?_⟩
  rw [recordBytes, recordBytes, slice, slice, List.take_take, Nat.min_eq_left inside]
  rfl

-- The parts of the records from offset on, length bytes of them.
structure Cut (store : Store) (records : List RangeRecord) (offset length : Nat) (kept : List RangeRecord) : Prop where
  some_kept : kept ≠ []
  fits : ∀ record ∈ kept, Fits store record
  sized : lengths kept = length
  bytes : kept.flatMap (recordBytes store) = slice (records.flatMap (recordBytes store)) offset length

theorem trimmed_advanced (first : RangeRecord) (rest : List RangeRecord) (offset : Nat) :
    (if offset = 0 then first :: rest
      else (first :: rest).modify 0 fun record =>
        { record with start := record.start + offset, length := record.length - offset }) =
      advanced first offset :: rest := by
  by_cases whole : offset = 0
  · subst whole
    rfl
  · rw [if_neg whole]
    rfl

theorem cut_to_the_end (store : Store) (first : RangeRecord) (rest : List RangeRecord) (offset length : Nat)
    (fits : ∀ record ∈ first :: rest, Fits store record) (inside : offset < first.length)
    (ends : offset + length = lengths (first :: rest)) :
    ∃ kept, subrangeRecords (first :: rest) offset length true = some kept ∧
      Cut store (first :: rest) offset length kept := by
  have whole := records_length store (first :: rest) fits
  obtain ⟨first_fits, first_bytes⟩ := advanced_fits store first offset (fits first List.mem_cons_self) inside
  have short := record_length store first (fits first List.mem_cons_self)
  refine ⟨advanced first offset :: rest, ?_, List.cons_ne_nil _ _, ?_, ?_, ?_⟩
  · rw [← trimmed_advanced first rest offset]
    rfl
  · intro record member
    rcases List.mem_cons.mp member with rfl | later
    · exact first_fits
    · exact fits record (List.mem_cons_of_mem _ later)
  · rw [lengths_cons] at ends ⊢
    dsimp only [advanced]
    omega
  · rw [slice, List.take_of_length_le (by rw [List.length_drop]; omega), List.flatMap_cons, List.flatMap_cons,
      first_bytes, List.drop_append_of_le_length (by omega)]

theorem modify_last (before : List RangeRecord) (record : RangeRecord) (change : RangeRecord → RangeRecord) :
    (before ++ [record]).modify before.length change = before ++ [change record] :=
  List.modifyTailIdx_add (List.modifyHead change) 0 before [record]

-- A slice from inside of the first list to inside of the third.
theorem slice_spanning (first middle last after : List UInt8) (offset used : Nat) (inside : offset ≤ first.length)
    (within : used ≤ last.length) :
    slice (first ++ (middle ++ (last ++ after))) offset (first.length - offset + (middle.length + used)) =
      first.drop offset ++ (middle ++ last.take used) := by
  rw [slice, List.drop_append_of_le_length inside, ← List.length_drop, List.take_length_add_append,
    List.take_length_add_append, List.take_append_of_le_length within]

theorem cut_before_the_end (store : Store) (first : RangeRecord) (rest : List RangeRecord) (offset length : Nat)
    (fits : ∀ record ∈ first :: rest, Fits store record) (inside : offset < first.length)
    (beyond : first.length < offset + length) (ends : offset + length ≤ lengths (first :: rest)) :
    ∃ kept, subrangeRecords (first :: rest) offset length false = some kept ∧
      Cut store (first :: rest) offset length kept := by
  rw [lengths_cons] at ends
  obtain ⟨before, record, after, used, counted, rfl, split, some_used, within⟩ :=
    count_records rest 1 (length - (first.length - offset)) (by omega) (by omega)
  obtain ⟨first_fits, first_bytes⟩ := advanced_fits store first offset (fits first List.mem_cons_self) inside
  have last_member : record ∈ first :: (before ++ record :: after) :=
    List.mem_cons_of_mem _ (List.mem_append_right _ List.mem_cons_self)
  obtain ⟨last_fits, last_bytes⟩ := shortened_fits store record used (fits record last_member) some_used within
  have before_fits : ∀ other ∈ before, Fits store other := fun other member =>
    fits other (List.mem_cons_of_mem _ (List.mem_append_left _ member))
  have first_length := record_length store first (fits first List.mem_cons_self)
  have before_length := records_length store before before_fits
  have record_whole := record_length store record (fits record last_member)
  have split_length : length = first.length - offset + (lengths before + used) := by omega
  refine ⟨advanced first offset :: (before ++ [shortened record used]), ?_, List.cons_ne_nil _ _, ?_, ?_, ?_⟩
  · have taken : (first :: (before ++ record :: after)).take (1 + before.length + 1) =
        first :: (before ++ [record]) := by
      rw [Nat.add_comm 1, List.take_succ_cons, List.take_length_add_append, List.take_succ_cons, List.take_zero]
    rw [subrangeRecords]
    dsimp only
    rw [if_neg (by decide), counted, Option.map_some, taken, trimmed_advanced, Nat.add_sub_cancel, Nat.add_comm 1,
      List.modify_succ_cons, modify_last]
    rfl
  · intro other member
    rcases List.mem_cons.mp member with rfl | later
    · exact first_fits
    · rcases List.mem_append.mp later with earlier | last
      · exact before_fits other earlier
      · exact List.mem_singleton.mp last ▸ last_fits
  · rw [lengths_cons, lengths_append, split_length]
    rfl
  · rw [List.flatMap_cons, List.flatMap_append, List.flatMap_cons, List.flatMap_nil, List.append_nil, first_bytes,
      last_bytes, List.flatMap_cons, List.flatMap_append, List.flatMap_cons, split_length, ← first_length,
      ← before_length, slice_spanning _ _ _ _ _ _ (by omega) (by omega)]

theorem records_cut (store : Store) (first : RangeRecord) (rest : List RangeRecord) (offset length : Nat)
    (fits : ∀ record ∈ first :: rest, Fits store record) (inside : offset < first.length)
    (beyond : first.length < offset + length) (ends : offset + length ≤ lengths (first :: rest)) (toTheEnd : Bool)
    (decided : toTheEnd = decide (offset + length = lengths (first :: rest))) :
    ∃ kept, subrangeRecords (first :: rest) offset length toTheEnd = some kept ∧
      Cut store (first :: rest) offset length kept := by
  by_cases whole : offset + length = lengths (first :: rest)
  · rw [decided, decide_eq_true whole]
    exact cut_to_the_end store first rest offset length fits inside whole
  · rw [decided, decide_eq_false whole]
    exact cut_before_the_end store first rest offset length fits inside beyond ends

theorem older_record (held : Nat → Int) (store : Store) (accounted : Accounted targets held store) (dd : Nat)
    (data : DataS) (present : values store dd = some data) (record : RangeRecord) (member : record ∈ data.records) :
    record.dataObject < dd := by
  obtain ⟨cell, found, rfl⟩ := read_of_values store dd data present
  exact accounted.older dd cell found record.dataObject (List.mem_map_of_mem member)

section Subrange

variable (held : Nat → Int) (store : Store) (sound : Sound store) (accounted : Accounted targets held store)

include sound accounted

-- Of an object that is not empty, a part that is neither empty nor past its end.
theorem subrange_part (within : Nat → Nat → Nat → Option (Store × Nat)) (dd : Nat) (data : DataS) (offset length : Nat)
    (present : values store dd = some data) (formed : Formed store data) (positive : 0 < length)
    (ends : offset + length ≤ data.size)
    (recurse : ∀ record ∈ data.records, ∀ leaf offset length, values store record.dataObject = some leaf →
      ∃ next made, within record.dataObject offset length = some (next, made) ∧
        Made held store next made (slice (contents store record.dataObject) offset length) .none) :
    ∃ next made, subrange within store dd data offset length = some (next, made) ∧
      Made held store next made (slice (contents store dd) offset length) .none := by
  rw [subrange, contents_values store dd data present]
  have bounded : length < sizeLimit := by
    have limit := formed.bounded
    omega
  by_cases leaf : data.records = []
  · obtain ⟨bytes, buffered, -, sized⟩ := formed.leaf leaf
    have fits : Fits store ⟨dd, offset, length⟩ :=
      ⟨positive, data, bytes, present, leaf, buffered, sized, sized ▸ ends⟩
    obtain ⟨next, ran, made⟩ := compose_made held store sound accounted [⟨dd, offset, length⟩] (List.cons_ne_nil _ _)
      (fun record member => List.mem_singleton.mp member ▸ fits) bounded
    rw [List.flatMap_singleton, recordBytes, leaf_bytes store dd data bytes present buffered] at made
    rw [if_pos leaf, dataBytes, if_pos leaf, buffered, Option.getD_some]
    exact ⟨next, fresh store, ran, made⟩
  · have sized := formed.sized leaf
    obtain ⟨before, first, rest, inner, found, records, split, inside⟩ :=
      find_record data.records offset (by omega)
    have fits := formed.fits
    rw [records] at fits sized
    have later_fits : ∀ record ∈ first :: rest, Fits store record := fun record member =>
      fits record (List.mem_append_right _ member)
    have before_length := records_length store before fun record member => fits record (List.mem_append_left _ member)
    have first_length := record_length store first (later_fits first List.mem_cons_self)
    rw [lengths_append] at sized
    -- what is left out in front is what the loop has taken off the offset
    have later : slice (data.records.flatMap (recordBytes store)) offset length =
        slice ((first :: rest).flatMap (recordBytes store)) inner length := by
      rw [records, List.flatMap_append, slice, split, ← before_length, List.drop_append,
        List.drop_of_length_le (by omega), Nat.add_sub_cancel_left, List.nil_append, slice]
    rw [if_neg leaf, found, dataBytes, if_neg leaf, later]
    dsimp only
    by_cases single : inner + length ≤ first.length
    · rw [if_pos single]
      obtain ⟨object, bytes, named, object_leaf, buffered, object_sized, object_within⟩ :=
        (later_fits first List.mem_cons_self).leaf
      obtain ⟨next, made, ran, outcome⟩ := recurse first (records ▸ List.mem_append_right _ List.mem_cons_self) object
        (first.start + inner) length named
      refine ⟨next, made, ran, ?_⟩
      have inside_first : length - (first.length - inner) = 0 := by omega
      rw [List.flatMap_cons, slice_append, first_length, inside_first, slice, slice, List.take_zero, List.append_nil,
        ← slice, recordBytes, slice_slice _ _ _ _ _ single]
      rwa [contents_values store _ object named, dataBytes, if_pos object_leaf, buffered, Option.getD_some,
        ← leaf_bytes store _ object bytes named buffered] at outcome
    · rw [if_neg single]
      obtain ⟨kept, cut, parts⟩ := records_cut store first rest inner length later_fits inside (Nat.lt_of_not_le single)
        (by omega) (decide (offset + length = data.size)) (decide_eq_decide.mpr (by omega))
      obtain ⟨next, ran, made⟩ := compose_made held store sound accounted kept parts.some_kept parts.fits
        (parts.sized.symm ▸ bounded)
      rw [parts.sized] at ran
      rw [parts.bytes] at made
      exact ⟨next, fresh store, by rw [cut, Option.bind_some, ran], made⟩

-- By induction on the depth: a record names an older object. An offset or a
-- length past the end gives the part up to the end.
theorem create_subrange_made (depth dd : Nat) (data : DataS) (offset length : Nat)
    (present : values store dd = some data) (shallow : dd < depth) :
    ∃ next made, createSubrange depth store dd offset length = some (next, made) ∧
      Made held store next made (slice (contents store dd) offset length) .none := by
  induction depth generalizing dd data offset length with
  | zero => exact absurd shallow (Nat.not_lt_zero dd)
  | succ depth ih =>
      have sized := contents_length store sound dd data present
      have recurse : ∀ record ∈ data.records, ∀ leaf offset length, values store record.dataObject = some leaf →
          ∃ next made, createSubrange depth store record.dataObject offset length = some (next, made) ∧
            Made held store next made (slice (contents store record.dataObject) offset length) .none :=
        fun record member leaf offset length named => ih record.dataObject leaf offset length named
          (Nat.lt_of_lt_of_le (older_record held store accounted dd data present record member)
            (Nat.le_of_lt_succ shallow))
      rw [createSubrange, present, Option.bind_some]
      by_cases nothing : data.size ≤ offset ∨ length = 0
      · have none_left : slice (contents store dd) offset length = [] := by
          rcases nothing with past | none_wanted
          · rw [slice, List.drop_of_length_le (sized ▸ past), List.take_nil]
          · rw [slice, none_wanted, List.take_zero]
        rw [if_pos nothing, none_left]
        exact ⟨store, dispatchDataEmpty, rfl, empty_made held store sound accounted⟩
      · rw [if_neg nothing]
        push Not at nothing
        have formed := sound.formed dd data present
          (nonempty_of_size store sound dd data present (by omega))
        by_cases clamped : data.size - offset < length
        · have rest : slice (contents store dd) offset length =
              slice (contents store dd) offset (data.size - offset) := by
            rw [slice, slice, List.take_of_length_le (by rw [List.length_drop]; omega),
              List.take_of_length_le (by rw [List.length_drop]; omega)]
          rw [if_pos clamped, rest]
          exact subrange_part held store sound accounted _ dd data offset _ present formed (by omega) (by omega) recurse
        · rw [if_neg clamped]
          by_cases whole : length = data.size
          · obtain ⟨next, retained, made⟩ := retain_made held store sound accounted dd data present
            have start : offset = 0 := by omega
            rw [if_pos whole, retained, Option.map_some, start, whole, ← sized, slice_all]
            exact ⟨next, dd, rfl, made⟩
          · rw [if_neg whole]
            exact subrange_part held store sound accounted _ dd data offset length present formed
              (Nat.pos_of_ne_zero nothing.2) (by omega) recurse

end Subrange

end CultivationMotain.Dispatch.DataObjects

import CultivationMotain.Dispatch.DataSubrange

set_option autoImplicit false

namespace CultivationMotain.Dispatch.DataObjects

open ReferenceCounts

universe u

-- A region is an object and the bytes of it that lie in one piece of memory.
def regions (store : Store) (dd : Nat) : List (Nat × List UInt8) :=
  (values store dd).elim [] fun data =>
    if data.size = 0 then []
    else if data.records.length ≤ 1 ∨ data.buf ≠ none then [(dd, dataBytes store data)]
    else data.records.map fun record => (record.dataObject, recordBytes store record)

-- The applier is called for one region after the other until it asks to stop.
def visit {σ : Type u} (applier : Applier σ) : σ → Nat → List (Nat × List UInt8) → σ × Bool
  | state, _, [] => (state, true)
  | state, offset, (object, bytes) :: rest =>
      let answer := applier state ⟨object, offset, bytes⟩
      if answer.2 then visit applier answer.1 (offset + bytes.length) rest else (answer.1, false)

theorem map_direct_leaf (store : Store) (dd offset : Nat) (data : DataS) (bytes : List UInt8)
    (present : values store dd = some data) (leaf : data.records = []) (buffered : data.buf = some bytes)
    (sized : data.size ≠ 0) : mapDirect store dd offset = some ⟨some (bytes.drop offset), dd, offset⟩ := by
  rw [mapDirect, present, Option.bind_some, if_neg sized, seeThrough, leaf]
  dsimp only
  rw [present, Option.map_some, buffered, Option.map_some]

theorem map_direct_trivial (store : Store) (dd offset : Nat) (data : DataS) (record : RangeRecord)
    (present : values store dd = some data) (single : data.records = [record]) (fits : Fits store record)
    (sized : data.size ≠ 0) :
    mapDirect store dd offset =
      some ⟨some ((bufferOf store record.dataObject).drop (offset + record.start)), record.dataObject,
        offset + record.start⟩ := by
  obtain ⟨object, bytes, named, -, buffered, -, -⟩ := fits.leaf
  rw [mapDirect, present, Option.bind_some, if_neg sized, seeThrough, single]
  dsimp only
  rw [named, Option.map_some, buffered, Option.map_some, leaf_bytes store _ object bytes named buffered]

theorem map_direct_composite (store : Store) (dd offset : Nat) (data : DataS) (present : values store dd = some data)
    (several : 1 < data.records.length) (sized : data.size ≠ 0) :
    mapDirect store dd offset = some ⟨data.buf.map (List.drop offset), dd, offset⟩ := by
  have through : seeThrough dd data offset = (dd, offset) := by
    rw [seeThrough]
    match records : data.records with
    | [] => rfl
    | [record] =>
        rw [records] at several
        exact absurd several (Nat.lt_irrefl 1)
    | first :: second :: rest => rfl
  rw [mapDirect, present, Option.bind_some, if_neg sized, through]
  dsimp only
  rw [present, Option.map_some]

-- The object's bytes where they lie in one piece of memory.
theorem map_direct (store : Store) (dd : Nat) (data : DataS) (present : values store dd = some data)
    (formed : Formed store data) :
    ∃ direct, mapDirect store dd 0 = some direct ∧
      (∀ buffer, direct.buffer = some buffer →
        buffer.take data.size = dataBytes store data ∧ (data.records.length ≤ 1 ∨ data.buf ≠ none)) ∧
      (direct.buffer = none →
        1 < data.records.length ∧ data.buf = none ∧ direct.object = dd ∧ direct.start = 0) := by
  have sized := (formed_pos store data formed).ne'
  match records : data.records with
  | [] =>
      obtain ⟨bytes, buffered, -, length⟩ := formed.leaf records
      refine ⟨_, map_direct_leaf store dd 0 data bytes present records buffered sized, ?_, fun none => (by cases none)⟩
      intro buffer mapped
      cases Option.some.inj mapped
      refine ⟨?_, Or.inl (Nat.zero_le 1)⟩
      rw [dataBytes, if_pos records, buffered, Option.getD_some, List.drop_zero, length, List.take_length]
  | [record] =>
      have fits := formed.fits record (by rw [records]; exact List.mem_cons_self)
      have length := formed.sized (by rw [records]; exact List.cons_ne_nil _ _)
      refine ⟨_, map_direct_trivial store dd 0 data record present records fits sized, ?_, fun none => (by cases none)⟩
      intro buffer mapped
      cases Option.some.inj mapped
      refine ⟨?_, Or.inl (Nat.le_refl 1)⟩
      rw [dataBytes, records, if_neg (List.cons_ne_nil _ _), List.flatMap_singleton, length, records, lengths_cons,
        Nat.zero_add]
      rfl
  | first :: second :: rest =>
      have several : 1 < data.records.length := by
        rw [records, List.length_cons, List.length_cons]
        omega
      rw [← records]
      refine ⟨_, map_direct_composite store dd 0 data present several sized, ?_, ?_⟩
      · intro buffer mapped
        obtain ⟨bytes, buffered, rfl⟩ := Option.map_eq_some_iff.mp mapped
        have composite : data.records ≠ [] := List.ne_nil_of_length_pos (Nat.zero_lt_of_lt several)
        have flat := (formed.flat composite bytes buffered).1
        have length := formed_length store data formed
        rw [dataBytes, if_neg composite] at length ⊢
        refine ⟨?_, Or.inr (by rw [buffered]; exact Option.some_ne_none bytes)⟩
        rw [List.drop_zero, flat, ← length, List.take_length]
      · intro unmapped
        exact ⟨several, Option.map_eq_none_iff.mp unmapped, rfl, rfl⟩

theorem regions_bytes (store : Store) (sound : Sound store) (dd : Nat) (data : DataS)
    (present : values store dd = some data) : (regions store dd).flatMap Prod.snd = contents store dd := by
  have length := contents_length store sound dd data present
  rw [regions, present, Option.elim_some]
  by_cases empty : data.size = 0
  · rw [if_pos empty, List.eq_nil_of_length_eq_zero (length.trans empty), List.flatMap_nil]
  · rw [if_neg empty, contents_values store dd data present]
    by_cases single : data.records.length ≤ 1 ∨ data.buf ≠ none
    · rw [if_pos single, List.flatMap_singleton]
    · rw [if_neg single, dataBytes, if_neg, List.flatMap_map]
      rintro leaf
      rw [leaf] at single
      exact single (Or.inl (Nat.zero_le 1))

theorem regions_nonempty (store : Store) (sound : Sound store) (dd : Nat) (data : DataS)
    (present : values store dd = some data) : ∀ region ∈ regions store dd, region.2 ≠ [] := by
  intro region member
  rw [regions, present, Option.elim_some] at member
  by_cases empty : data.size = 0
  · rw [if_pos empty] at member
    cases member
  · rw [if_neg empty] at member
    have formed := sound.formed dd data present (nonempty_of_size store sound dd data present empty)
    by_cases single : data.records.length ≤ 1 ∨ data.buf ≠ none
    · rw [if_pos single] at member
      cases List.mem_singleton.mp member
      exact List.ne_nil_of_length_pos (formed_length store data formed ▸ formed_pos store data formed)
    · rw [if_neg single] at member
      obtain ⟨record, listed, rfl⟩ := List.mem_map.mp member
      have fits := formed.fits record listed
      exact List.ne_nil_of_length_pos (record_length store record fits ▸ fits.nonempty)

section Apply

variable {σ : Type u} (applier : Applier σ)

theorem apply_record (store : Store) (depth : Nat) (state : σ) (record : RangeRecord) (offset : Nat)
    (fits : Fits store record) :
    dataApply applier store (depth + 1) state record.dataObject offset record.start record.length =
      some (applier state ⟨record.dataObject, offset, recordBytes store record⟩) := by
  obtain ⟨data, bytes, named, leaf, buffered, sized, within⟩ := fits.leaf
  have some_bytes : data.size ≠ 0 := by
    have positive := fits.nonempty
    omega
  rw [dataApply, map_direct_leaf store _ 0 data bytes named leaf buffered some_bytes, Option.bind_some, List.drop_zero,
    recordBytes, leaf_bytes store _ data bytes named buffered]
  rfl

theorem apply_records (store : Store) (depth : Nat) (records : List RangeRecord)
    (fits : ∀ record ∈ records, Fits store record) (state : σ) (offset : Nat) :
    applyRecords (fun state record offset =>
        dataApply applier store (depth + 1) state record.dataObject offset record.start record.length)
      records state offset =
      some (visit applier state offset (records.map fun record => (record.dataObject, recordBytes store record))) := by
  induction records generalizing state offset with
  | nil => rfl
  | cons record rest ih =>
      have here := fits record List.mem_cons_self
      rw [applyRecords, apply_record applier store depth state record offset here, Option.bind_some, List.map_cons,
        visit]
      by_cases more : (applier state ⟨record.dataObject, offset, recordBytes store record⟩).2 = true
      · rw [if_pos more, if_pos more, ih fun other later => fits other (List.mem_cons_of_mem _ later),
          record_length store record here]
      · rw [if_neg more, if_neg more]

theorem apply_visit (held : Nat → Int) (store : Store) (sound : Sound store) (accounted : Accounted targets held store)
    (dd : Nat) (data : DataS) (present : values store dd = some data) (state : σ) :
    dispatchDataApply applier store dd state = some (visit applier state 0 (regions store dd)) := by
  rw [dispatchDataApply, present, Option.bind_some, regions, present, Option.elim_some]
  by_cases empty : data.size = 0
  · rw [if_pos empty, if_pos empty, visit]
  · rw [if_neg empty, if_neg empty]
    have formed := sound.formed dd data present (nonempty_of_size store sound dd data present empty)
    obtain ⟨direct, mapped, buffered, unbuffered⟩ := map_direct store dd data present formed
    rw [dataApply, mapped, Option.bind_some]
    cases direct_buffer : direct.buffer with
    | some buffer =>
        obtain ⟨bytes, single⟩ := buffered buffer direct_buffer
        dsimp only
        rw [if_pos single, List.drop_zero, bytes, visit]
        cases answer : (applier state ⟨dd, 0, dataBytes store data⟩).2 with
        | true => rw [if_pos rfl, visit, ← answer]
        | false => rw [if_neg Bool.false_ne_true, ← answer]
    | none =>
        obtain ⟨several, no_buffer, -, -⟩ := unbuffered direct_buffer
        have composite : ¬(data.records.length ≤ 1 ∨ data.buf ≠ none) := by
          rintro (few | flat)
          · omega
          · exact flat no_buffer
        obtain ⟨record, member⟩ := List.exists_mem_of_length_pos (Nat.zero_lt_of_lt several)
        have older := older_record held store accounted dd data present record member
        obtain ⟨depth, rfl⟩ := Nat.exists_eq_succ_of_ne_zero (Nat.ne_zero_of_lt older)
        dsimp only
        rw [present, Option.bind_some, if_neg composite]
        exact apply_records applier store depth data.records formed.fits state 0

end Apply

theorem memcpy_length (buffer bytes : List UInt8) (offset : Nat) (inside : offset + bytes.length ≤ buffer.length) :
    (memcpy buffer offset bytes).length = buffer.length := by
  rw [memcpy, List.length_append, List.length_append, List.length_take, List.length_drop]
  omega

theorem memcpy_memcpy (buffer first second : List UInt8) (offset : Nat) (inside : offset ≤ buffer.length) :
    memcpy (memcpy buffer offset first) (offset + first.length) second = memcpy buffer offset (first ++ second) := by
  have front : (buffer.take offset ++ first).length = offset + first.length := by
    rw [List.length_append, List.length_take, Nat.min_eq_left inside]
  rw [memcpy, memcpy, memcpy, List.take_left' front, ← front, List.drop_length_add_append, List.drop_drop, front,
    List.length_append, Nat.add_assoc, List.append_assoc, List.append_assoc, List.append_assoc, List.append_assoc]

-- By induction on the regions: what is in front of the offset has been copied.
theorem visit_memcpy (parts : List (Nat × List UInt8)) (buffer : List UInt8) (offset : Nat)
    (inside : offset + (parts.flatMap Prod.snd).length ≤ buffer.length) :
    visit (fun buffer region => (memcpy buffer region.offset region.bytes, true)) buffer offset parts =
      (memcpy buffer offset (parts.flatMap Prod.snd), true) := by
  induction parts generalizing buffer offset with
  | nil =>
      rw [visit, List.flatMap_nil, memcpy, List.append_nil, List.length_nil, Nat.add_zero, List.take_append_drop]
  | cons part rest ih =>
      obtain ⟨object, bytes⟩ := part
      rw [List.flatMap_cons, List.length_append] at inside
      dsimp only at inside
      have copied := memcpy_length buffer bytes offset (by omega)
      rw [visit, if_pos rfl, List.flatMap_cons]
      dsimp only
      rw [ih _ _ (by omega), memcpy_memcpy buffer bytes _ offset (by omega)]

theorem flatten_contents (held : Nat → Int) (store : Store) (sound : Sound store)
    (accounted : Accounted targets held store) (garbage : Nat → UInt8) (dd : Nat) (data : DataS)
    (present : values store dd = some data) : dataFlatten garbage store dd = some (contents store dd) := by
  have length := contents_length store sound dd data present
  have bytes := regions_bytes store sound dd data present
  rw [dataFlatten, present, Option.bind_some, apply_visit _ held store sound accounted dd data present,
    visit_memcpy _ _ _ (by rw [bytes, length, Nat.zero_add, List.length_map, List.length_range]), Option.map_some,
    bytes, memcpy, List.take_zero, List.nil_append,
    List.drop_of_length_le (by rw [length, Nat.zero_add, List.length_map, List.length_range]), List.append_nil]

-- The loop over the records stops at the one that has the location.
theorem region_record (store : Store) (records : List RangeRecord) (location offset : Nat)
    (fits : ∀ record ∈ records, Fits store record)
    (past : offset ≤ location) (inside : location < offset + lengths records) :
    ∃ before record after, records = before ++ record :: after ∧
      regionRecord records 0 location offset = some (record, 0, offset + lengths before) ∧
      offset + lengths before ≤ location ∧ location < offset + lengths before + record.length := by
  induction records generalizing offset with
  | nil =>
      rw [lengths, List.map_nil, List.sum_nil] at inside
      omega
  | cons record rest ih =>
      have positive := (fits record List.mem_cons_self).nonempty
      rw [lengths_cons] at inside
      rw [regionRecord, if_neg (Nat.not_le_of_lt positive), Nat.sub_zero]
      by_cases skipped : offset + record.length ≤ location
      · obtain ⟨before, found, after, rfl, ran, from_here, to_here⟩ := ih (offset + record.length)
          (fun other later => fits other (List.mem_cons_of_mem _ later)) skipped (by omega)
        refine ⟨record :: before, found, after, rfl, ?_, ?_, ?_⟩
        · rw [if_pos skipped, ran, lengths_cons, Nat.add_assoc]
        · rw [lengths_cons]
          omega
        · rw [lengths_cons]
          omega
      · rw [if_neg skipped]
        exact ⟨[], record, rest, rfl, rfl, past, Nat.lt_of_not_le skipped⟩

section Mapping

variable (held : Nat → Int) (store : Store) (sound : Sound store) (accounted : Accounted targets held store)

include sound accounted

-- The mapped object is the object itself or a new leaf; its buffer holds the bytes.
theorem create_map_made (garbage : Nat → UInt8) (dd : Nat) (data : DataS) (present : values store dd = some data) :
    ∃ next made buffer, dispatchDataCreateMap garbage store dd = some (next, made, buffer, data.size) ∧
      buffer.getD [] = contents store dd ∧ Made held store next made (contents store dd) .none := by
  have length := contents_length store sound dd data present
  rw [dispatchDataCreateMap, present, Option.bind_some]
  by_cases empty : data.size = 0
  · rw [if_pos empty, List.eq_nil_of_length_eq_zero (length.trans empty), empty]
    exact ⟨store, dispatchDataEmpty, none, rfl, rfl, empty_made held store sound accounted⟩
  · rw [if_neg empty]
    have formed := sound.formed dd data present (nonempty_of_size store sound dd data present empty)
    obtain ⟨direct, mapped, buffered, -⟩ := map_direct store dd data present formed
    rw [mapped, Option.bind_some]
    cases direct_buffer : direct.buffer with
    | some buffer =>
        obtain ⟨next, retained, made⟩ := retain_made held store sound accounted dd data present
        dsimp only
        rw [retained, Option.map_some]
        refine ⟨next, dd, _, rfl, ?_, made⟩
        rw [Option.getD_some, (buffered buffer direct_buffer).1, contents_values store dd data present]
    | none =>
        have made := create_made held store sound accounted (some (contents store dd)) .free
          (by rw [Option.getD_some, length]; exact formed.bounded)
        dsimp only
        rw [flatten_contents held store sound accounted garbage dd data present, Option.map_some]
        exact ⟨_, _, _, rfl, rfl, { made with blocks := made.blocks }⟩

theorem copy_record_made (depth location offset : Nat) (record : RangeRecord) (fits : Fits store record)
    (bounded : record.length < sizeLimit) :
    ∃ next made, copyRegion (depth + 1) store record.dataObject record.start record.length location offset =
        some (next, made, offset) ∧ Made held store next made (recordBytes store record) .none := by
  obtain ⟨data, bytes, named, leaf, buffered, sized, within⟩ := fits.leaf
  have positive := fits.nonempty
  have leaf_contents : contents store record.dataObject = bytes := by
    rw [contents_values store _ data named, dataBytes, if_pos leaf, buffered, Option.getD_some]
  rw [copyRegion, named, Option.bind_some,
    map_direct_leaf store _ record.start data bytes named leaf buffered (by omega), Option.bind_some]
  dsimp only
  by_cases whole : record.start = 0 ∧ record.length = data.size
  · obtain ⟨next, retained, made⟩ := retain_made held store sound accounted record.dataObject data named
    have all : recordBytes store record = contents store record.dataObject := by
      rw [recordBytes, leaf_bytes store _ data bytes named buffered, whole.1, whole.2, sized, slice_all, leaf_contents]
    rw [if_pos whole, retained, Option.map_some, all]
    exact ⟨next, record.dataObject, rfl, made⟩
  · obtain ⟨next, ran, made⟩ := compose_made held store sound accounted [record] (List.cons_ne_nil _ _)
      (fun other member => List.mem_singleton.mp member ▸ fits) bounded
    rw [List.flatMap_singleton] at made
    have ran_single : compose store record.length [⟨record.dataObject, record.start, record.length⟩] =
        some (next, fresh store) := ran
    rw [if_neg whole, named, Option.bind_some, if_neg whole, ran_single, Option.map_some]
    exact ⟨next, fresh store, rfl, made⟩

-- The region with the location is one of those that dispatch_data_apply visits.
theorem copy_region_made (dd : Nat) (data : DataS) (location : Nat) (present : values store dd = some data)
    (inside : location < data.size) :
    ∃ next made before region after, regions store dd = before ++ region :: after ∧
      (before.flatMap Prod.snd).length ≤ location ∧
      location < (before.flatMap Prod.snd).length + region.2.length ∧
      dispatchDataCopyRegion store dd location = some (next, made, (before.flatMap Prod.snd).length) ∧
      Made held store next made region.2 .none := by
  have sized : data.size ≠ 0 := by omega
  have formed := sound.formed dd data present (nonempty_of_size store sound dd data present sized)
  obtain ⟨direct, mapped, buffered, unbuffered⟩ := map_direct store dd data present formed
  rw [dispatchDataCopyRegion, present, Option.bind_some, if_neg (Nat.not_le_of_lt inside), copyRegion, present,
    Option.bind_some, mapped, Option.bind_some, regions, present, Option.elim_some, if_neg sized]
  cases direct_buffer : direct.buffer with
  | some buffer =>
      obtain ⟨next, retained, made⟩ := retain_made held store sound accounted dd data present
      dsimp only
      rw [if_pos (buffered buffer direct_buffer).2, if_pos ⟨rfl, rfl⟩, retained, Option.map_some]
      rw [contents_values store dd data present] at made
      refine ⟨next, dd, [], (dd, dataBytes store data), [], rfl, Nat.zero_le _, ?_, rfl, made⟩
      rw [List.flatMap_nil, List.length_nil, Nat.zero_add, formed_length store data formed]
      exact inside
  | none =>
      obtain ⟨several, no_buffer, same, start⟩ := unbuffered direct_buffer
      have composite : ¬(data.records.length ≤ 1 ∨ data.buf ≠ none) := by
        rintro (few | flat)
        · omega
        · exact flat no_buffer
      have some_records : data.records ≠ [] := List.ne_nil_of_length_pos (Nat.zero_lt_of_lt several)
      obtain ⟨before, record, after, records, found, from_here, to_here⟩ :=
        region_record store data.records location 0 formed.fits (Nat.zero_le _)
          (by rw [Nat.zero_add, ← formed.sized some_records]; exact inside)
      have member : record ∈ data.records := records ▸ List.mem_append_right _ List.mem_cons_self
      have older := older_record held store accounted dd data present record member
      obtain ⟨depth, rfl⟩ := Nat.exists_eq_succ_of_ne_zero (Nat.ne_zero_of_lt older)
      have before_fits : ∀ other ∈ before, Fits store other := fun other earlier =>
        formed.fits other (records ▸ List.mem_append_left _ earlier)
      have bounded : record.length < sizeLimit := by
        have total := formed.sized some_records
        have limit := formed.bounded
        rw [records, lengths_append, lengths_cons] at total
        omega
      have before_length : ((before.map fun record => (record.dataObject, recordBytes store record)).flatMap
          Prod.snd).length = lengths before := by
        rw [List.flatMap_map]
        exact records_length store before before_fits
      obtain ⟨next, made, ran, outcome⟩ := copy_record_made held store sound accounted depth (location - lengths before)
        (lengths before) record (formed.fits record member) bounded
      dsimp only
      rw [if_neg composite, same, start, present, Option.bind_some, found, Option.bind_some]
      dsimp only
      rw [Nat.zero_add, Nat.zero_add, Nat.zero_add, Nat.sub_zero, ran]
      rw [Nat.zero_add] at from_here to_here
      refine ⟨next, made, before.map fun record => (record.dataObject, recordBytes store record),
        (record.dataObject, recordBytes store record),
        after.map fun record => (record.dataObject, recordBytes store record), ?_, before_length ▸ from_here, ?_,
        by rw [before_length], outcome⟩
      · rw [records, List.map_append, List.map_cons]
      · rw [before_length, record_length store record (formed.fits record member)]
        exact to_here

omit accounted in
-- A composite object is no leaf, so that no record names it.
theorem keep_flattened (dd : Nat) (cell : Cell DataS) (bytes : List UInt8) (found : read store dd = some cell)
    (several : 1 < cell.value.records.length) (flat : bytes = contents store dd)
    (nonempty : dd ≠ dispatchDataEmpty) :
    Sound (write store dd { cell with value := { cell.value with buf := some bytes } }) ∧
      ∀ other kept, values store other = some kept →
        contents (write store dd { cell with value := { cell.value with buf := some bytes } }) other =
          contents store other ∧
        ∃ moved, values (write store dd { cell with value := { cell.value with buf := some bytes } }) other =
          some moved := by
  let flattened : DataS := { cell.value with buf := some bytes }
  let next := write store dd { cell with value := flattened }
  have present : values store dd = some cell.value := by rw [values, found, Option.map_some]
  have composite : cell.value.records ≠ [] := List.ne_nil_of_length_pos (Nat.zero_lt_of_lt several)
  have formed := sound.formed dd cell.value present nonempty
  have read_next : ∀ other, read next other = if other = dd then some { cell with value := flattened }
      else read store other := fun other => read_write store dd other cell _ found
  have here : values next dd = some flattened := by rw [values, read_next, if_pos rfl, Option.map_some]
  have elsewhere : ∀ other, other ≠ dd → outline next other = outline store other := by
    intro other different
    rw [outline, read_next, if_neg different, outline]
  have values_elsewhere : ∀ other, other ≠ dd → values next other = values store other := by
    intro other different
    rw [values_outline, elsewhere other different, ← values_outline]
  have leaves : ∀ record, Fits store record → values next record.dataObject = values store record.dataObject := by
    intro record fits
    obtain ⟨leaf, buffer, named, no_records, -⟩ := fits.leaf
    refine values_elsewhere _ ?_
    intro same
    rw [same, present] at named
    exact composite (Option.some.inj named ▸ no_records)
  have flattened_formed : Formed next flattened := by
    refine formed_same store next flattened (fun record member => leaves record (formed.fits record member))
      ⟨fun leaf => absurd leaf composite, formed.fits, formed.sized, fun _ buffer buffered => ⟨?_, several⟩,
        formed.bounded⟩
    rw [← Option.some.inj buffered, flat, contents_values store dd cell.value present, dataBytes, if_neg composite]
  refine ⟨⟨?_, ?_⟩, ?_⟩
  · rw [elsewhere _ (Ne.symm nonempty), sound.empty]
  · intro other data there some_object
    by_cases same : other = dd
    · rw [same, here] at there
      exact Option.some.inj there ▸ flattened_formed
    · rw [values_elsewhere other same] at there
      have shaped := sound.formed other data there some_object
      exact formed_same store next data (fun record member => leaves record (shaped.fits record member)) shaped
  · intro other kept there
    by_cases same : other = dd
    · subst same
      refine ⟨?_, flattened, here⟩
      rw [contents_values next other flattened here, contents_values store other cell.value present, dataBytes,
        dataBytes, if_neg composite, if_neg composite]
      exact records_same store next _ fun record member => leaves record (formed.fits record member)
    · refine ⟨?_, kept, (values_elsewhere other same).trans there⟩
      by_cases empty : other = dispatchDataEmpty
      · subst empty
        rw [contents, values_elsewhere _ same, empty_values store sound, contents, empty_values store sound]
        rfl
      · have shaped := sound.formed other kept there empty
        rw [contents_values next other kept ((values_elsewhere other same).trans there),
          contents_values store other kept there]
        exact data_same store next kept fun record member => leaves record (shaped.fits record member)

-- The object keeps the flattened buffer, which holds its bytes.
theorem flattened_bytes (garbage : Nat → UInt8) (dd : Nat) (data : DataS) (present : values store dd = some data) :
    ∃ next buffer, getFlattenedBytes garbage store dd = some (next, buffer) ∧
      (buffer.getD []) = contents store dd ∧ Sound next ∧ Accounted targets held next ∧
      (∀ other kept, values store other = some kept → contents next other = contents store other ∧
        ∃ moved, values next other = some moved) ∧
      ∀ name, total (blockMeasure name) next = total (blockMeasure name) store := by
  have length := contents_length store sound dd data present
  have same : ∀ other kept, values store other = some kept → contents store other = contents store other ∧
      ∃ moved, values store other = some moved := fun _ kept there => ⟨rfl, kept, there⟩
  rw [getFlattenedBytes, present, Option.bind_some]
  by_cases empty : data.size = 0
  · rw [if_pos empty, List.eq_nil_of_length_eq_zero (length.trans empty)]
    exact ⟨store, none, rfl, rfl, sound, accounted, same, fun _ => rfl⟩
  · rw [if_neg empty]
    have nonempty := nonempty_of_size store sound dd data present empty
    have formed := sound.formed dd data present nonempty
    obtain ⟨direct, mapped, buffered, unbuffered⟩ := map_direct store dd data present formed
    rw [mapped, Option.bind_some]
    cases direct_buffer : direct.buffer with
    | some buffer =>
        refine ⟨store, _, rfl, ?_, sound, accounted, same, fun _ => rfl⟩
        rw [Option.getD_some, (buffered buffer direct_buffer).1, contents_values store dd data present]
    | none =>
        obtain ⟨several, no_buffer, object, start⟩ := unbuffered direct_buffer
        obtain ⟨cell, found, rfl⟩ := read_of_values store dd data present
        dsimp only
        rw [object, start, found, Option.bind_some,
          flatten_contents held store sound accounted garbage dd cell.value present, Option.map_some]
        obtain ⟨next_sound, next_kept⟩ := keep_flattened store sound dd cell _ found several rfl nonempty
        refine ⟨_, _, rfl, ?_, next_sound, accounted_replace targets dd cell _ accounted found rfl, next_kept,
          fun name => write_total (blockMeasure name) store dd cell _ found rfl⟩
        rw [Option.getD_some, List.drop_zero]

end Mapping

end CultivationMotain.Dispatch.DataObjects

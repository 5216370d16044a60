import CultivationMotain.Dispatch.DataContents

set_option autoImplicit false

namespace CultivationMotain.Dispatch.DataObjects

open ReferenceCounts

-- The leaves that have the block with the name for a destructor.
def blockMeasure (name : Nat) (data : DataS) : Nat :=
  if data.records = [] ∧ data.destructor = .block name then 1 else 0

-- A call has returned an object with the bytes, which its caller holds now; given
-- is the destructor that came with them.
structure Made (held : Nat → Int) (store next : Store) (dd : Nat) (bytes : List UInt8) (given : Destructor) :
    Prop where
  sound : Sound next
  accounted : Accounted targets (fun other => held other + if other = dd then 1 else 0) next
  kept : ∀ other data, values store other = some data → values next other = some data
  made : contents next dd = bytes
  live : ∃ data, values next dd = some data
  blocks : ∀ name, total (blockMeasure name) next =
    total (blockMeasure name) store + if given = .block name then 1 else 0

section Operations

variable (held : Nat → Int) (store : Store) (sound : Sound store) (accounted : Accounted targets held store)

include sound accounted

theorem empty_made : Made held store store dispatchDataEmpty [] .none := by
  obtain ⟨cell, found, seen⟩ := Option.map_eq_some_iff.mp sound.empty
  have immortal : cell.count = none := Option.isNone_iff_eq_none.mp (congrArg Prod.snd seen)
  exact ⟨sound, accounted_immortal targets dispatchDataEmpty cell 1 accounted found immortal,
    fun _ _ present => present, contents_empty store sound, ⟨emptyData, empty_values store sound⟩, fun _ => rfl⟩

theorem retain_made (dd : Nat) (data : DataS) (present : values store dd = some data) :
    ∃ next, dispatchRetain store dd = some next ∧ Made held store next dd (contents store dd) .none := by
  obtain ⟨cell, found, -⟩ := read_of_values store dd data present
  obtain ⟨next, retained, counted, same⟩ := retain_accounted targets _ dd cell accounted found
  have kept : ∀ other data, values store other = some data → values next other = some data := by
    intro other data there
    rwa [same.values]
  exact ⟨next, retained, sound_steady store next same sound, counted, kept,
    contents_kept store next sound kept dd data present, ⟨data, kept dd data present⟩,
    fun name => retain_total (blockMeasure name) _ store next dd retained⟩

omit accounted in
theorem sound_alloc (data : DataS) (formed : Formed store data) : Sound (alloc store data) := by
  have kept := fun dd other (present : values store dd = some other) => values_alloc store data dd other present
  have named : ∀ other, Formed store other → ∀ record ∈ other.records,
      values (alloc store data) record.dataObject = values store record.dataObject := by
    intro other shaped record member
    obtain ⟨leaf, bytes, present, -⟩ := (shaped.fits record member).leaf
    rw [present, kept _ leaf present]
  have old : dispatchDataEmpty ≠ fresh store := by
    obtain ⟨cell, found, -⟩ := Option.map_eq_some_iff.mp sound.empty
    exact (read_lt_fresh store dispatchDataEmpty cell found).ne
  refine ⟨?_, ?_⟩
  · rw [outline_alloc, if_neg old, sound.empty]
  · intro dd other present nonempty
    by_cases new : dd = fresh store
    · rw [new, values_alloc_fresh] at present
      cases Option.some.inj present
      exact formed_same store (alloc store data) data (named data formed) formed
    · rw [values_outline, outline_alloc, if_neg new, ← values_outline] at present
      have shaped := sound.formed dd other present nonempty
      exact formed_same store (alloc store data) other (named other shaped) shaped

theorem alloc_made (data : DataS) (formed : Formed store data) (leaf : data.records = []) :
    Made held store (alloc store data) (fresh store) (dataBytes store data) data.destructor := by
  have known : ∀ target ∈ targets data, target < fresh store := by
    intro target member
    rw [targets, leaf] at member
    cases member
  have nothing : targets data = [] := by rw [targets, leaf, List.map_nil]
  refine ⟨sound_alloc store sound data formed, ?_, fun other kept present => values_alloc store data other kept present,
    ?_, ⟨data, values_alloc_fresh store data⟩, ?_⟩
  · refine accounted_congr targets (alloc_accounted targets data accounted known) fun ref => ?_
    rw [nothing, List.count_nil]
    exact Int.sub_zero _
  · rw [contents_values _ _ data (values_alloc_fresh store data), dataBytes, dataBytes, if_pos leaf, if_pos leaf]
  · intro name
    rw [alloc_total, blockMeasure]
    by_cases named : data.destructor = .block name
    · rw [if_pos named, if_pos ⟨leaf, named⟩]
    · rw [if_neg named, if_neg fun both => named both.2]

theorem compose_made (records : List RangeRecord) (some_records : records ≠ [])
    (fits : ∀ record ∈ records, Fits store record) (bounded : lengths records < sizeLimit) :
    ∃ next, compose store (lengths records) records = some (next, fresh store) ∧
      Made held store next (fresh store) (records.flatMap (recordBytes store)) .none := by
  let data : DataS := { buf := none, destructor := .default, size := lengths records, records := records }
  have formed : Formed store data :=
    ⟨fun none => absurd none some_records, fits, fun _ => rfl, fun _ _ buffered => (by cases buffered), bounded⟩
  have leaves : ∀ target ∈ targets data, ∃ leaf, values store target = some leaf := by
    intro target member
    obtain ⟨record, listed, rfl⟩ := List.mem_map.mp member
    obtain ⟨leaf, bytes, present, -⟩ := (fits record listed).leaf
    exact ⟨leaf, present⟩
  have known : ∀ target ∈ targets data, target < fresh store := by
    intro target member
    obtain ⟨leaf, present⟩ := leaves target member
    obtain ⟨cell, found, -⟩ := read_of_values store target leaf present
    exact read_lt_fresh store target cell found
  have allocated := sound_alloc store sound data formed
  obtain ⟨next, ran, counted, same⟩ := retains_accounted targets (osObjectGlobalRefcnt + 1) (targets data)
    (fun other => held other + if other = fresh store then 1 else 0) (alloc store data)
    (alloc_accounted targets data accounted known) fun target member => by
      obtain ⟨leaf, present⟩ := leaves target member
      exact ⟨leaf, values_alloc store data target leaf present⟩
  have values_same : values next = values (alloc store data) := same.values
  have kept : ∀ other data, values store other = some data → values next other = some data := by
    intro other old present
    rw [values_same]
    exact values_alloc store data other old present
  have made : values next (fresh store) = some data := by rw [values_same, values_alloc_fresh]
  have retained : (targets data).foldlM dispatchRetain (alloc store data) = some next := ran
  refine ⟨next, ?_, sound_steady _ next same allocated, counted, kept, ?_, ⟨data, made⟩, ?_⟩
  · rw [compose, retained, Option.map_some]
  · rw [contents_values next _ data made, dataBytes, if_neg some_records]
    refine records_same store next records fun record member => ?_
    obtain ⟨leaf, bytes, present, -⟩ := (fits record member).leaf
    rw [present, kept _ leaf present]
  · intro name
    have composite : blockMeasure name data = 0 := if_neg fun both => some_records both.1
    rw [retains_total _ _ _ _ next ran, alloc_total, composite]
    rfl

-- Of a destructor that is given with a buffer, the one that the object keeps
-- calls the same block.
theorem create_made (buffer : Option (List UInt8)) (destructor : Destructor)
    (bounded : (buffer.getD []).length < sizeLimit) :
    Made held store (dispatchDataCreate store buffer destructor).1 (dispatchDataCreate store buffer destructor).2
      (buffer.getD []) destructor := by
  have nothing : ∀ buffer, Made held store (dispatchDataCreate.discard store destructor buffer).1
      (dispatchDataCreate.discard store destructor buffer).2 [] destructor := by
    intro buffer
    have same := empty_made held store sound accounted
    by_cases unset : destructor = .default
    · rw [dispatchDataCreate.discard, if_pos unset, unset]
      exact { same with blocks := fun _ => rfl }
    · rw [dispatchDataCreate.discard, if_neg unset]
      refine ⟨⟨sound.empty, fun dd data present nonempty =>
          formed_same store _ data (fun _ _ => rfl) (sound.formed dd data present nonempty)⟩,
        ⟨same.accounted.counted, same.accounted.gone, same.accounted.older⟩, same.kept, same.made, same.live, ?_⟩
      intro name
      dsimp only [total]
      rw [List.map_append, List.sum_append, ← Nat.add_assoc, List.map_singleton, List.sum_singleton, blockMeasure]
      by_cases named : destructor = .block name
      · rw [if_pos named, if_pos ⟨rfl, named⟩]
      · rw [if_neg named, if_neg fun both => named both.2]
  match buffer with
  | none => exact nothing none
  | some [] => exact nothing (some [])
  | some (byte :: rest) =>
      have made := fun kept => alloc_made held store sound accounted
        { buf := some (byte :: rest), destructor := kept, size := (byte :: rest).length, records := [] }
        ⟨fun _ => ⟨byte :: rest, rfl, List.cons_ne_nil _ _, rfl⟩, fun _ member => (by cases member),
          fun composite => absurd rfl composite, fun composite => absurd rfl composite, bounded⟩ rfl
      cases destructor with
      | default => exact { made .free with blocks := (made .free).blocks }
      | inline => exact { made .none with blocks := (made .none).blocks }
      | free => exact made .free
      | none => exact made .none
      | block name => exact made (.block name)

theorem create_alloc_made (bytes : List UInt8) (bounded : bytes.length < sizeLimit) :
    Made held store (dispatchDataCreateAlloc store bytes).1 (dispatchDataCreateAlloc store bytes).2 bytes .none := by
  by_cases empty : bytes = []
  · rw [dispatchDataCreateAlloc, if_pos empty, empty]
    exact empty_made held store sound accounted
  · rw [dispatchDataCreateAlloc, if_neg empty]
    exact alloc_made held store sound accounted _ ⟨fun _ => ⟨bytes, rfl, empty, rfl⟩, fun _ member => (by cases member),
      fun composite => absurd rfl composite, fun composite => absurd rfl composite, bounded⟩ rfl

omit sound accounted in
-- A leaf is one part, the whole of it.
theorem records_of (dd : Nat) (data : DataS) (present : values store dd = some data) (formed : Formed store data) :
    recordsOf dd data ≠ [] ∧ (∀ record ∈ recordsOf dd data, Fits store record) ∧
      lengths (recordsOf dd data) = data.size ∧
      (recordsOf dd data).flatMap (recordBytes store) = dataBytes store data := by
  by_cases leaf : data.records = []
  · obtain ⟨bytes, buffered, some_bytes, sized⟩ := formed.leaf leaf
    have whole : Fits store ⟨dd, 0, data.size⟩ :=
      ⟨formed_pos store data formed, data, bytes, present, leaf, buffered, sized, by rw [sized, Nat.zero_add]⟩
    rw [recordsOf, if_pos leaf, dataBytes, if_pos leaf, buffered, Option.getD_some]
    refine ⟨List.cons_ne_nil _ _, fun record member => List.mem_singleton.mp member ▸ whole, Nat.add_zero _, ?_⟩
    rw [List.flatMap_singleton, recordBytes, leaf_bytes store dd data bytes present buffered, sized, slice_all]
  · rw [recordsOf, if_neg leaf, dataBytes, if_neg leaf]
    exact ⟨leaf, formed.fits, (formed.sized leaf).symm, rfl⟩

theorem concat_made (dd1 dd2 : Nat) (data1 data2 : DataS) (present1 : values store dd1 = some data1)
    (present2 : values store dd2 = some data2) (bounded : data1.size + data2.size < sizeLimit) :
    ∃ next dd, dispatchDataCreateConcat store dd1 dd2 = some (next, dd) ∧
      Made held store next dd (contents store dd1 ++ contents store dd2) .none := by
  have length1 := contents_length store sound dd1 data1 present1
  have length2 := contents_length store sound dd2 data2 present2
  rw [dispatchDataCreateConcat, present1, Option.bind_some, present2, Option.bind_some]
  by_cases empty1 : data1.size = 0
  · obtain ⟨next, retained, made⟩ := retain_made held store sound accounted dd2 data2 present2
    rw [if_pos empty1, retained, List.eq_nil_of_length_eq_zero (length1.trans empty1), List.nil_append]
    exact ⟨next, dd2, rfl, made⟩
  · rw [if_neg empty1]
    by_cases empty2 : data2.size = 0
    · obtain ⟨next, retained, made⟩ := retain_made held store sound accounted dd1 data1 present1
      rw [if_pos empty2, retained, List.eq_nil_of_length_eq_zero (length2.trans empty2), List.append_nil]
      exact ⟨next, dd1, rfl, made⟩
    · rw [if_neg empty2]
      obtain ⟨some_parts, fits1, sized1, bytes1⟩ := records_of store dd1 data1 present1
        (sound.formed dd1 data1 present1 (nonempty_of_size store sound dd1 data1 present1 empty1))
      obtain ⟨-, fits2, sized2, bytes2⟩ := records_of store dd2 data2 present2
        (sound.formed dd2 data2 present2 (nonempty_of_size store sound dd2 data2 present2 empty2))
      have sized : (data1.size + data2.size) % sizeLimit = lengths (recordsOf dd1 data1 ++ recordsOf dd2 data2) := by
        rw [Nat.mod_eq_of_lt bounded, lengths_append, sized1, sized2]
      obtain ⟨next, ran, made⟩ := compose_made held store sound accounted (recordsOf dd1 data1 ++ recordsOf dd2 data2)
        (List.append_ne_nil_of_left_ne_nil some_parts _)
        (fun record member => (List.mem_append.mp member).elim (fits1 record) (fits2 record))
        (sized ▸ Nat.mod_lt _ (Nat.two_pow_pos 64))
      rw [List.flatMap_append, bytes1, bytes2, ← contents_values store dd1 data1 present1,
        ← contents_values store dd2 data2 present2] at made
      exact ⟨next, fresh store, by rw [sized, ran], made⟩

end Operations

end CultivationMotain.Dispatch.DataObjects

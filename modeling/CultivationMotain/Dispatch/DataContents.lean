import CultivationMotain.Dispatch.Data

set_option autoImplicit false

namespace CultivationMotain.Dispatch.DataObjects

open ReferenceCounts

def slice (bytes : List UInt8) (start length : Nat) : List UInt8 := (bytes.drop start).take length

def bufferOf (store : Store) (dd : Nat) : List UInt8 := ((values store dd).bind DataS.buf).getD []

def recordBytes (store : Store) (record : RangeRecord) : List UInt8 :=
  slice (bufferOf store record.dataObject) record.start record.length

-- The bytes that an object stands for.
def dataBytes (store : Store) (data : DataS) : List UInt8 :=
  if data.records = [] then data.buf.getD [] else data.records.flatMap (recordBytes store)

def contents (store : Store) (dd : Nat) : List UInt8 := (values store dd).elim [] (dataBytes store)

def lengths (records : List RangeRecord) : Nat := (records.map RangeRecord.length).sum

-- A record names a part of a leaf, and not an empty one.
structure Fits (store : Store) (record : RangeRecord) : Prop where
  nonempty : 0 < record.length
  leaf : ∃ data bytes, values store record.dataObject = some data ∧ data.records = [] ∧ data.buf = some bytes ∧
    data.size = bytes.length ∧ record.start + record.length ≤ bytes.length

-- The objects that are not empty are leaves, or composed of parts of leaves; a
-- flattened one has more than one part.
structure Formed (store : Store) (data : DataS) : Prop where
  leaf : data.records = [] → ∃ bytes, data.buf = some bytes ∧ bytes ≠ [] ∧ data.size = bytes.length
  fits : ∀ record ∈ data.records, Fits store record
  sized : data.records ≠ [] → data.size = lengths data.records
  flat : data.records ≠ [] → ∀ bytes, data.buf = some bytes →
    bytes = data.records.flatMap (recordBytes store) ∧ 1 < data.records.length
  bounded : data.size < sizeLimit

structure Sound (store : Store) : Prop where
  empty : outline store dispatchDataEmpty = some (emptyData, true)
  formed : ∀ dd data, values store dd = some data → dd ≠ dispatchDataEmpty → Formed store data

theorem slice_length (bytes : List UInt8) (start length : Nat) (fits : start + length ≤ bytes.length) :
    (slice bytes start length).length = length := by
  rw [slice, List.length_take, List.length_drop]
  omega

theorem slice_slice (bytes : List UInt8) (start length offset count : Nat) (within : offset + count ≤ length) :
    slice (slice bytes start length) offset count = slice bytes (start + offset) count := by
  rw [slice, slice, slice, List.drop_take, List.take_take, List.drop_drop, Nat.min_eq_left (by omega)]

theorem slice_append (first second : List UInt8) (start length : Nat) :
    slice (first ++ second) start length =
      slice first start length ++ slice second (start - first.length) (length - (first.length - start)) := by
  rw [slice, List.drop_append, List.take_append, List.length_drop]
  rfl

theorem slice_all (bytes : List UInt8) : slice bytes 0 bytes.length = bytes := by
  rw [slice, List.drop_zero, List.take_length]

theorem leaf_bytes (store : Store) (dd : Nat) (data : DataS) (bytes : List UInt8)
    (present : values store dd = some data) (buffered : data.buf = some bytes) : bufferOf store dd = bytes := by
  rw [bufferOf, present, Option.bind_some, buffered, Option.getD_some]

theorem lengths_append (first second : List RangeRecord) :
    lengths (first ++ second) = lengths first + lengths second := by
  rw [lengths, List.map_append, List.sum_append]
  rfl

theorem lengths_cons (record : RangeRecord) (rest : List RangeRecord) :
    lengths (record :: rest) = record.length + lengths rest := rfl

theorem record_length (store : Store) (record : RangeRecord) (fits : Fits store record) :
    (recordBytes store record).length = record.length := by
  obtain ⟨data, bytes, present, -, buffered, -, within⟩ := fits.leaf
  rw [recordBytes, leaf_bytes store _ data bytes present buffered, slice_length bytes _ _ within]

theorem records_length (store : Store) (records : List RangeRecord) (fits : ∀ record ∈ records, Fits store record) :
    (records.flatMap (recordBytes store)).length = lengths records := by
  induction records with
  | nil => rfl
  | cons record rest ih =>
      rw [List.flatMap_cons, List.length_append, record_length store record (fits record List.mem_cons_self),
        ih fun other later => fits other (List.mem_cons_of_mem _ later)]
      rfl

theorem formed_length (store : Store) (data : DataS) (formed : Formed store data) :
    (dataBytes store data).length = data.size := by
  by_cases leaf : data.records = []
  · obtain ⟨bytes, buffered, -, sized⟩ := formed.leaf leaf
    rw [dataBytes, if_pos leaf, buffered, Option.getD_some, sized]
  · rw [dataBytes, if_neg leaf, records_length store _ formed.fits, formed.sized leaf]

theorem formed_pos (store : Store) (data : DataS) (formed : Formed store data) : 0 < data.size := by
  cases records : data.records with
  | nil =>
      obtain ⟨bytes, -, some_bytes, sized⟩ := formed.leaf records
      rw [sized]
      exact List.length_pos_iff.mpr some_bytes
  | cons record rest =>
      have sized := formed.sized (by rw [records]; exact List.cons_ne_nil _ _)
      have first := (formed.fits record (by rw [records]; exact List.mem_cons_self)).nonempty
      rw [sized, records, lengths, List.map_cons, List.sum_cons]
      omega

theorem empty_values (store : Store) (sound : Sound store) : values store dispatchDataEmpty = some emptyData := by
  rw [values_outline, sound.empty, Option.map_some]

@[simp] theorem contents_empty (store : Store) (sound : Sound store) : contents store dispatchDataEmpty = [] := by
  rw [contents, empty_values store sound]
  rfl

theorem contents_values (store : Store) (dd : Nat) (data : DataS) (present : values store dd = some data) :
    contents store dd = dataBytes store data := by
  rw [contents, present, Option.elim_some]

-- An object's size is that of its bytes, be it empty or not.
theorem contents_length (store : Store) (sound : Sound store) (dd : Nat) (data : DataS)
    (present : values store dd = some data) : (contents store dd).length = data.size := by
  by_cases empty : dd = dispatchDataEmpty
  · subst empty
    rw [empty_values store sound] at present
    rw [contents_empty store sound, ← Option.some.inj present]
    rfl
  · rw [contents_values store dd data present, formed_length store data (sound.formed dd data present empty)]

theorem nonempty_of_size (store : Store) (sound : Sound store) (dd : Nat) (data : DataS)
    (present : values store dd = some data) (sized : data.size ≠ 0) : dd ≠ dispatchDataEmpty := by
  rintro rfl
  rw [empty_values store sound] at present
  exact sized (congrArg DataS.size (Option.some.inj present)).symm

-- Only the leaves that the records name matter.
theorem record_same (store next : Store) (record : RangeRecord)
    (same : values next record.dataObject = values store record.dataObject) :
    recordBytes next record = recordBytes store record := by
  rw [recordBytes, recordBytes, bufferOf, bufferOf, same]

theorem fits_same (store next : Store) (record : RangeRecord)
    (same : values next record.dataObject = values store record.dataObject) (fits : Fits store record) :
    Fits next record := by
  refine ⟨fits.nonempty, ?_⟩
  rw [same]
  exact fits.leaf

theorem records_same (store next : Store) (records : List RangeRecord)
    (same : ∀ record ∈ records, values next record.dataObject = values store record.dataObject) :
    records.flatMap (recordBytes next) = records.flatMap (recordBytes store) :=
  List.flatMap_congr fun record member => record_same store next record (same record member)

theorem data_same (store next : Store) (data : DataS)
    (same : ∀ record ∈ data.records, values next record.dataObject = values store record.dataObject) :
    dataBytes next data = dataBytes store data := by
  rw [dataBytes, dataBytes, records_same store next data.records same]

theorem formed_same (store next : Store) (data : DataS)
    (same : ∀ record ∈ data.records, values next record.dataObject = values store record.dataObject)
    (formed : Formed store data) : Formed next data where
  leaf := formed.leaf
  fits := fun record member => fits_same store next record (same record member) (formed.fits record member)
  sized := formed.sized
  flat := by
    rw [records_same store next data.records same]
    exact formed.flat
  bounded := formed.bounded

theorem sound_steady (store next : Store) (same : Steady next store) (sound : Sound store) : Sound next := by
  refine ⟨same.immortal _ _ sound.empty, fun dd data present nonempty => ?_⟩
  rw [same.values] at present
  exact formed_same store next data (fun record _ => by rw [same.values]) (sound.formed dd data present nonempty)

-- A record's object is a leaf, so that what keeps the leaves keeps every object.
theorem contents_kept (store next : Store) (sound : Sound store)
    (kept : ∀ dd data, values store dd = some data → values next dd = some data) (dd : Nat) (data : DataS)
    (present : values store dd = some data) : contents next dd = contents store dd := by
  rw [contents_values store dd data present, contents_values next dd data (kept dd data present)]
  refine data_same store next data fun record member => ?_
  by_cases empty : dd = dispatchDataEmpty
  · subst empty
    rw [empty_values store sound] at present
    rw [← Option.some.inj present] at member
    cases member
  · obtain ⟨leaf, bytes, named, -⟩ := ((sound.formed dd data present empty).fits record member).leaf
    rw [named, kept _ leaf named]

end CultivationMotain.Dispatch.DataObjects

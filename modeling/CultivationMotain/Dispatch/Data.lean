import CultivationMotain.Dispatch.Words
import CultivationMotain.Library.ReferenceCounts

set_option autoImplicit false

namespace CultivationMotain.Dispatch.DataObjects

open ReferenceCounts

-- default is NULL.
inductive Destructor where
  | default
  | free
  | none
  | inline
  | block (name : Nat)
deriving DecidableEq, Repr

structure RangeRecord where
  dataObject : Nat
  start : Nat
  length : Nat
deriving DecidableEq, Repr

-- buf is the memory itself; none is NULL.
structure DataS where
  buf : Option (List UInt8)
  destructor : Destructor
  size : Nat
  records : List RangeRecord
deriving DecidableEq, Repr

abbrev Store := Heap DataS

def targets (data : DataS) : List Nat := data.records.map RangeRecord.dataObject

def dispatchDataEmpty : Nat := 0

def emptyData : DataS := { buf := none, destructor := .default, size := 0, records := [] }

def created : Store := { cells := [some ⟨none, emptyData⟩], disposed := [] }

-- INT_MAX. xref_cnt is one less than the number of references.
def osObjectGlobalRefcnt : Nat := 2 ^ 31 - 1

def dispatchRetain (store : Store) (dd : Nat) : Option Store := retain (osObjectGlobalRefcnt + 1) store dd

-- An object's records name older objects, so that its address bounds the depth
-- of every recursion into them.
def dispatchRelease (store : Store) (dd : Nat) : Option Store := release targets (dd + 1) store dd

def destroyBuffer : Destructor → List Destructor
  | .free => []
  | .none => []
  | destructor => [destructor]

def dataDispose (data : DataS) : List Destructor :=
  if data.records = [] then destroyBuffer data.destructor else []

def submitted (store : Store) : List Destructor := store.disposed.flatMap dataDispose

def dispatchDataCreate (store : Store) (buffer : Option (List UInt8)) (destructor : Destructor) : Store × Nat :=
  match buffer with
  | none => (discard buffer)
  | some [] => (discard buffer)
  | some bytes =>
      let kept := match destructor with
        | .default => .free
        | .inline => .none
        | other => other
      (alloc store { buf := some bytes, destructor := kept, size := bytes.length, records := [] }, fresh store)
where
  discard (buffer : Option (List UInt8)) : Store × Nat :=
    if destructor = .default then (store, dispatchDataEmpty)
    else
      let data := { emptyData with buf := buffer, destructor := destructor }
      ({ store with disposed := store.disposed ++ [data] }, dispatchDataEmpty)

-- bytes is what the caller puts in the buffer before it gives the object away.
def dispatchDataCreateAlloc (store : Store) (bytes : List UInt8) : Store × Nat :=
  if bytes = [] then (store, dispatchDataEmpty)
  else (alloc store { buf := some bytes, destructor := .none, size := bytes.length, records := [] }, fresh store)

def recordsOf (dd : Nat) (data : DataS) : List RangeRecord :=
  if data.records = [] then [⟨dd, 0, data.size⟩] else data.records

def compose (store : Store) (size : Nat) (records : List RangeRecord) : Option (Store × Nat) :=
  let data := { buf := none, destructor := .default, size := size, records := records }
  (targets data).foldlM dispatchRetain (alloc store data) |>.map fun next => (next, fresh store)

def dispatchDataCreateConcat (store : Store) (dd1 dd2 : Nat) : Option (Store × Nat) :=
  (values store dd1).bind fun data1 => (values store dd2).bind fun data2 =>
    if data1.size = 0 then (dispatchRetain store dd2).map fun next => (next, dd2)
    else if data2.size = 0 then (dispatchRetain store dd1).map fun next => (next, dd1)
    else compose store ((data1.size + data2.size) % sizeLimit) (recordsOf dd1 data1 ++ recordsOf dd2 data2)

def findRecord : List RangeRecord → Nat → List RangeRecord × Nat
  | [], offset => ([], offset)
  | record :: rest, offset =>
      if record.length ≤ offset then findRecord rest (offset - record.length) else (record :: rest, offset)

-- None is the crash.
def countRecords : List RangeRecord → Nat → Nat → Option (Nat × Nat)
  | [], count, lastLength => some (count, lastLength)
  | record :: rest, count, lastLength =>
      if lastLength ≤ record.length then some (count + 1, lastLength)
      else if rest = [] then none
      else countRecords rest (count + 1) (lastLength - record.length)

def subrangeRecords (records : List RangeRecord) (offset length : Nat) (toTheEnd : Bool) :
    Option (List RangeRecord) :=
  let trimmed (kept : List RangeRecord) :=
    if offset = 0 then kept
    else kept.modify 0 fun record => { record with start := record.start + offset, length := record.length - offset }
  match records with
  | [] => none
  | first :: rest =>
      if toTheEnd then some (trimmed (first :: rest))
      else
        (countRecords rest 1 (length - (first.length - offset))).map fun counted =>
          (trimmed ((first :: rest).take counted.1)).modify (counted.1 - 1) fun record =>
            { record with length := counted.2 }

-- within is the call for the object that a record names.
def subrange (within : Nat → Nat → Nat → Option (Store × Nat)) (store : Store) (dd : Nat) (data : DataS)
    (offset length : Nat) : Option (Store × Nat) :=
  if data.records = [] then compose store length [⟨dd, offset, length⟩]
  else
    let toTheEnd := decide (offset + length = data.size)
    match findRecord data.records offset with
    | ([], _) => none
    | (first :: rest, offset) =>
        if offset + length ≤ first.length then within first.dataObject (first.start + offset) length
        else (subrangeRecords (first :: rest) offset length toTheEnd).bind (compose store length)

def createSubrange : Nat → Store → Nat → Nat → Nat → Option (Store × Nat)
  | 0, _, _, _, _ => none
  | depth + 1, store, dd, offset, length =>
      (values store dd).bind fun data =>
        if data.size ≤ offset ∨ length = 0 then some (store, dispatchDataEmpty)
        else if data.size - offset < length then
          subrange (createSubrange depth store) store dd data offset (data.size - offset)
        else if length = data.size then (dispatchRetain store dd).map fun next => (next, dd)
        else subrange (createSubrange depth store) store dd data offset length

def dispatchDataCreateSubrange (store : Store) (dd offset length : Nat) : Option (Store × Nat) :=
  createSubrange (dd + 1) store dd offset length

structure Direct where
  buffer : Option (List UInt8)
  object : Nat
  start : Nat
deriving DecidableEq, Repr

def seeThrough (dd : Nat) (data : DataS) (offset : Nat) : Nat × Nat :=
  match data.records with
  | [record] => (record.dataObject, offset + record.start)
  | _ => (dd, offset)

def mapDirect (store : Store) (dd offset : Nat) : Option Direct :=
  (values store dd).bind fun data =>
    if data.size = 0 then none
    else
      let (object, start) := seeThrough dd data offset
      (values store object).map fun data => ⟨data.buf.map (List.drop start), object, start⟩

structure Region where
  object : Nat
  offset : Nat
  bytes : List UInt8
deriving DecidableEq, Repr

universe u

-- The applier's state stands for what it writes; it returns whether to go on.
abbrev Applier (σ : Type u) := σ → Region → σ × Bool

section Apply

variable {σ : Type u} (applier : Applier σ)

def applyRecords (visit : σ → RangeRecord → Nat → Option (σ × Bool)) :
    List RangeRecord → σ → Nat → Option (σ × Bool)
  | [], state, _ => some (state, true)
  | record :: rest, state, offset =>
      (visit state record offset).bind fun answer =>
        if answer.2 then applyRecords visit rest answer.1 (offset + record.length) else some (answer.1, false)

def dataApply (store : Store) : Nat → σ → Nat → Nat → Nat → Nat → Option (σ × Bool)
  | 0, _, _, _, _, _ => none
  | depth + 1, state, dd, offset, start, size =>
      (mapDirect store dd 0).bind fun direct =>
        match direct.buffer with
        | some buffer => some (applier state ⟨dd, offset, (buffer.drop start).take size⟩)
        | none =>
            (values store dd).bind fun data =>
              applyRecords (fun state record offset =>
                dataApply store depth state record.dataObject offset record.start record.length)
                data.records state offset

def dispatchDataApply (store : Store) (dd : Nat) (state : σ) : Option (σ × Bool) :=
  (values store dd).bind fun data =>
    if data.size = 0 then some (state, true) else dataApply applier store (dd + 1) state dd 0 0 data.size

end Apply

def memcpy (buffer : List UInt8) (offset : Nat) (bytes : List UInt8) : List UInt8 :=
  buffer.take offset ++ bytes ++ buffer.drop (offset + bytes.length)

-- The memory that malloc returns holds no particular bytes: garbage.
def dataFlatten (garbage : Nat → UInt8) (store : Store) (dd : Nat) : Option (List UInt8) :=
  (values store dd).bind fun data =>
    (dispatchDataApply (fun buffer region => (memcpy buffer region.offset region.bytes, true)) store dd
      ((List.range data.size).map garbage)).map Prod.fst

def dispatchDataCreateMap (garbage : Nat → UInt8) (store : Store) (dd : Nat) :
    Option (Store × Nat × Option (List UInt8) × Nat) :=
  (values store dd).bind fun data =>
    if data.size = 0 then some (store, dispatchDataEmpty, none, 0)
    else
      (mapDirect store dd 0).bind fun direct =>
        match direct.buffer with
        | some buffer => (dispatchRetain store dd).map fun next => (next, dd, some (buffer.take data.size), data.size)
        | none =>
            (dataFlatten garbage store dd).map fun buffer =>
              let made := dispatchDataCreate store (some buffer) .free
              (made.1, made.2, some buffer, data.size)

def getFlattenedBytes (garbage : Nat → UInt8) (store : Store) (dd : Nat) : Option (Store × Option (List UInt8)) :=
  (values store dd).bind fun data =>
    if data.size = 0 then some (store, none)
    else
      (mapDirect store dd 0).bind fun direct =>
        match direct.buffer with
        | some buffer => some (store, some (buffer.take data.size))
        | none =>
            (read store direct.object).bind fun cell =>
              (dataFlatten garbage store direct.object).map fun flatbuf =>
                (write store direct.object { cell with value := { cell.value with buf := some flatbuf } },
                  some (flatbuf.drop direct.start))

-- With the record, the bytes of it that are skipped and the offset it starts at.
def regionRecord : List RangeRecord → Nat → Nat → Nat → Option (RangeRecord × Nat × Nat)
  | [], _, _, _ => none
  | record :: rest, start, location, offset =>
      if record.length ≤ start then regionRecord rest (start - record.length) location offset
      else if offset + (record.length - start) ≤ location then
        regionRecord rest 0 location (offset + (record.length - start))
      else some (record, start, offset)

def copyRegion : Nat → Store → Nat → Nat → Nat → Nat → Nat → Option (Store × Nat × Nat)
  | 0, _, _, _, _, _, _ => none
  | depth + 1, store, dd, start, size, location, offsetPtr =>
      (values store dd).bind fun data =>
        (mapDirect store dd start).bind fun direct =>
          match direct.buffer with
          | some _ =>
              if start = 0 ∧ size = data.size then (dispatchRetain store dd).map fun next => (next, dd, offsetPtr)
              else
                (values store direct.object).bind fun inner =>
                  if direct.start = 0 ∧ size = inner.size then
                    (dispatchRetain store direct.object).map fun next => (next, direct.object, offsetPtr)
                  else
                    (compose store size [⟨direct.object, direct.start, size⟩]).map fun made =>
                      (made.1, made.2, offsetPtr)
          | none =>
              (values store direct.object).bind fun inner =>
                (regionRecord inner.records direct.start location 0).bind fun found =>
                  copyRegion depth store found.1.dataObject (found.2.1 + found.1.start)
                    (found.1.length - found.2.1) (location - found.2.2) (offsetPtr + found.2.2)

def dispatchDataCopyRegion (store : Store) (dd location : Nat) : Option (Store × Nat × Nat) :=
  (values store dd).bind fun data =>
    if data.size ≤ location then some (store, dispatchDataEmpty, data.size)
    else copyRegion (dd + 1) store dd 0 data.size location 0

end CultivationMotain.Dispatch.DataObjects

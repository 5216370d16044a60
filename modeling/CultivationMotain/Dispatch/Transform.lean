import CultivationMotain.Dispatch.DataRuns

set_option autoImplicit false

namespace CultivationMotain.Dispatch.DataObjects

open ReferenceCounts

def base32EncodeTable : List UInt8 := "ABCDEFGHIJKLMNOPQRSTUVWXYZ234567".toList.map fun c => c.toNat.toUInt8

def base32hexEncodeTable : List UInt8 := "0123456789ABCDEFGHIJKLMNOPQRSTUV".toList.map fun c => c.toNat.toUInt8

def base64EncodeTable : List UInt8 :=
  "ABCDEFGHIJKLMNOPQRSTUVWXYZabcdefghijklmnopqrstuvwxyz0123456789+/".toList.map fun c => c.toNat.toUInt8

def base32DecodeTable : List Int := [
  -1, -1, -1, -1, -1, -1, -1, -1, -1, -1, -1, -1, -1, -1, -1, -1, -1,
  -1, -1, -1, -1, -1, -1, -1, -1, -1, -1, -1, -1, -1, -1, -1, -1, -1,
  -1, -1, -1, -1, -1, -1, -1, -1, -1, -1, -1, -1, -1, -1, -1, -1, 26,
  27, 28, 29, 30, 31, -1, -1, -1, -1, -1, -2, -1, -1, -1,  0,  1,  2,
   3,  4,  5,  6,  7,  8,  9, 10, 11, 12, 13, 14, 15, 16, 17, 18, 19,
  20, 21, 22, 23, 24, 25]

def base32hexDecodeTable : List Int := [
  -1, -1, -1, -1, -1, -1, -1, -1, -1, -1, -1, -1, -1, -1, -1, -1, -1,
  -1, -1, -1, -1, -1, -1, -1, -1, -1, -1, -1, -1, -1, -1, -1, -1, -1,
  -1, -1, -1, -1, -1, -1, -1, -1, -1, -1, -1, -1, -1, -1,  0,  1,  2,
   3,  4,  5,  6,  7,  8,  9, -1, -1, -1, -2, -1, -1, -1, 10, 11, 12,
  13, 14, 15, 16, 17, 18, 19, 20, 21, 22, 23, 24, 25, 26, 27, 28, 29,
  30, 31]

def base64DecodeTable : List Int := [
  -1, -1, -1, -1, -1, -1, -1, -1, -1, -1, -1, -1, -1, -1,
  -1, -1, -1, -1, -1, -1, -1, -1, -1, -1, -1, -1, -1, -1,
  -1, -1, -1, -1, -1, -1, -1, -1, -1, -1, -1, -1, -1, -1,
  -1, 62, -1, -1, -1, 63, 52, 53, 54, 55, 56, 57, 58, 59,
  60, 61, -1, -1, -1, -2, -1, -1, -1,  0,  1,  2,  3,  4,
   5,  6,  7,  8,  9, 10, 11, 12, 13, 14, 15, 16, 17, 18,
  19, 20, 21, 22, 23, 24, 25, -1, -1, -1, -1, -1, -1, 26,
  27, 28, 29, 30, 31, 32, 33, 34, 35, 36, 37, 38, 39, 40,
  41, 42, 43, 44, 45, 46, 47, 48, 49, 50, 51]

def equalsSign : UInt8 := 61

def visible (byte : UInt8) : Bool := byte ≠ 10 ∧ byte ≠ 9 ∧ byte ≠ 32

-- trim is how many of a region's bytes the pad takes off.
structure Decoder where
  bits : Nat
  group : Nat
  table : List Int
  tableSize : Nat
  unpack : Nat → List UInt8
  trim : Nat → Nat

def byteAt (x shift : Nat) : UInt8 := ((x >>> shift) &&& 0xff).toUInt8

def base32Trim : Nat → Nat
  | 1 => 1
  | 3 => 2
  | 4 => 3
  | 6 => 4
  | _ => 0

def base32WithTable (table : List Int) (tableSize : Nat) : Decoder where
  bits := 5
  group := 8
  table := table
  tableSize := tableSize
  unpack := fun x => [byteAt x 32, byteAt x 24, byteAt x 16, byteAt x 8, byteAt x 0]
  trim := base32Trim

def base32Decoder : Decoder := base32WithTable base32DecodeTable base32DecodeTable.length

-- base32hex_decode_table_size is computed from the encode table, whose string
-- ends in a zero byte.
def base32hexDecoder : Decoder := base32WithTable base32hexDecodeTable (base32hexEncodeTable.length + 1)

def base64Decoder : Decoder where
  bits := 6
  group := 4
  table := base64DecodeTable
  tableSize := base64DecodeTable.length
  unpack := fun x => [byteAt x 16, byteAt x 8, byteAt x 0]
  trim := fun pad => pad

structure Decoding where
  x : Nat
  count : Nat
  pad : Nat
  written : List UInt8
deriving DecidableEq, Repr

def decodeByte (decoder : Decoder) (state : Decoding) (byte : UInt8) : Option Decoding :=
  if visible byte = false then some state
  else
    let index := byte.toNat
    let value := decoder.table.getD index (-1)
    if decoder.tableSize ≤ index ∨ value = -1 then none
    else
      let count := state.count + 1
      let pad := if value = -2 then state.pad + 1 else state.pad
      let digit := if value = -2 then 0 else value.toNat
      let x := (state.x * 2 ^ decoder.bits % sizeLimit + digit) % sizeLimit
      let written := if count % decoder.group = 0 then state.written ++ decoder.unpack x else state.written
      some { x := x, count := count, pad := pad, written := written }

-- overrun is an object larger than its buffer, as the size is the difference of
-- two size_t.
structure Decoded where
  state : Decoding
  rv : List UInt8
  overrun : Bool
deriving DecidableEq, Repr

def cleared (state : Decoding) : Decoding := { state with written := [] }

-- A region's dest is its own.
def decodeRegion (decoder : Decoder) : Applier Decoded := fun state region =>
  match region.bytes.foldlM (decodeByte decoder) (cleared state.state) with
  | none => (state, false)
  | some next =>
      if decoder.trim next.pad ≤ next.written.length then
        let final := next.written.length - decoder.trim next.pad
        ({ state with state := cleared next, rv := state.rv ++ next.written.take final }, true)
      else ({ state with state := cleared next, overrun := true }, true)

def decodingStart : Decoded where
  state := { x := 0, count := 0, pad := 0, written := [] }
  rv := []
  overrun := false

inductive Result where
  | null
  | overrun
  | bytes (rv : List UInt8)
deriving DecidableEq, Repr

def decodeResult (answer : Decoded × Bool) : Result :=
  if answer.2 = false then .null else if answer.1.overrun then .overrun else .bytes answer.1.rv

def transformFrom (decoder : Decoder) (store : Store) (dd : Nat) : Option Result :=
  (dispatchDataApply (decodeRegion decoder) store dd decodingStart).map decodeResult

structure Encoder where
  group : Nat
  units : Nat
  emit : Nat → Nat → Nat → List UInt8
  tail : Nat → Nat → List UInt8

def charAt (table : List UInt8) (index : Nat) : UInt8 := table.getD index 0

def base32Emit (table : List UInt8) (count last curr : Nat) : List UInt8 :=
  match count % 5 with
  | 0 => [charAt table ((curr >>> 3) &&& 0x1f)]
  | 1 => [charAt table (((last <<< 2) ||| (curr >>> 6)) &&& 0x1f), charAt table ((curr >>> 1) &&& 0x1f)]
  | 2 => [charAt table (((last <<< 4) ||| (curr >>> 4)) &&& 0x1f)]
  | 3 => [charAt table (((last <<< 1) ||| (curr >>> 7)) &&& 0x1f), charAt table ((curr >>> 2) &&& 0x1f)]
  | _ => [charAt table (((last <<< 3) ||| (curr >>> 5)) &&& 0x1f), charAt table (curr &&& 0x1f)]

def base32Tail (table : List UInt8) (count last : Nat) : List UInt8 :=
  match count % 5 with
  | 0 => []
  | 1 => charAt table ((last <<< 2) &&& 0x1c) :: List.replicate 6 equalsSign
  | 2 => charAt table ((last <<< 4) &&& 0x10) :: List.replicate 4 equalsSign
  | 3 => charAt table ((last <<< 1) &&& 0x1e) :: List.replicate 3 equalsSign
  | _ => charAt table ((last <<< 3) &&& 0x18) :: List.replicate 1 equalsSign

def base32ToTable (table : List UInt8) : Encoder where
  group := 5
  units := 8
  emit := base32Emit table
  tail := base32Tail table

def base64Emit (count last curr : Nat) : List UInt8 :=
  match count % 3 with
  | 0 => [charAt base64EncodeTable ((curr >>> 2) &&& 0x3f)]
  | 1 => [charAt base64EncodeTable (((last <<< 4) ||| (curr >>> 4)) &&& 0x3f)]
  | _ => [charAt base64EncodeTable (((last <<< 2) ||| (curr >>> 6)) &&& 0x3f), charAt base64EncodeTable (curr &&& 0x3f)]

def base64Tail (count last : Nat) : List UInt8 :=
  match count % 3 with
  | 0 => []
  | 1 => [charAt base64EncodeTable ((last <<< 4) &&& 0x30), equalsSign, equalsSign]
  | _ => [charAt base64EncodeTable ((last <<< 2) &&& 0x3c), equalsSign]

def base64Encoder : Encoder where
  group := 3
  units := 4
  emit := base64Emit
  tail := base64Tail

def encodeBytes (encoder : Encoder) : Nat → Nat → List UInt8 → List UInt8
  | _, _, [] => []
  | count, last, curr :: rest =>
      encoder.emit count (if count % encoder.group = 0 then 0 else last) curr.toNat ++
        encodeBytes encoder (count + 1) curr.toNat rest

def lastOf (bytes : List UInt8) : Nat := (bytes.getLast?.getD 0).toNat

abbrev Encoding := Nat × List UInt8

def encodeRegion (encoder : Encoder) (total : Nat) (lastByte : Nat → Option UInt8) : Applier Encoding :=
  fun state region =>
    match if state.1 % encoder.group ≠ 0 ∧ region.bytes ≠ [] then lastByte (region.offset - 1) else some 0 with
    | none => (state, false)
    | some last =>
        let count := state.1 + region.bytes.length
        let written := state.2 ++ encodeBytes encoder state.1 last.toNat region.bytes
        if region.offset + region.bytes.length = total then
          ((count, written ++ encoder.tail count (lastOf region.bytes)), true)
        else ((count, written), true)

-- The objects that it makes are released when the byte has been read.
def subrangeMap (garbage : Nat → UInt8) (store : Store) (dd offset size : Nat) : Option (List UInt8) :=
  (dispatchDataCreateSubrange store dd offset size).bind fun made =>
    if dispatchDataGetSize made.1 made.2 = size then
      (dispatchDataCreateMap garbage made.1 made.2).bind fun mapped => mapped.2.2.1
    else none

def lastByte (garbage : Nat → UInt8) (store : Store) (dd offset : Nat) : Option UInt8 :=
  (subrangeMap garbage store dd offset 1).bind List.head?

def howmany (x y : Nat) : Nat := (x + (y - 1)) % sizeLimit / y

-- none: more was written than dest has room for. SIZE_T_MAX is what the headers
-- make it, which need not be the last size_t.
def transformTo (sizeTMax : Fin sizeLimit) (encoder : Encoder) (garbage : Nat → UInt8) (store : Store) (dd : Nat) :
    Option Result :=
  let total := dispatchDataGetSize store dd
  let destSize := howmany total encoder.group
  if sizeTMax.val / encoder.units < destSize then some .null
  else
    (dispatchDataApply (encodeRegion encoder total (lastByte garbage store dd)) store dd (0, [])).bind fun answer =>
      if answer.2 = false then some .null
      else if destSize * encoder.units < answer.1.2.length then none
      else
        some (.bytes (answer.1.2 ++
          (List.range (destSize * encoder.units - answer.1.2.length)).map garbage))

end CultivationMotain.Dispatch.DataObjects

import Mathlib.Data.Nat.Basic
import Mathlib.Data.List.Basic

set_option autoImplicit false

namespace CultivationMotain.SocketGame

abbrev Bytes := List UInt8

inductive ByteOrder where
  | littleEndian
  | bigEndian
deriving DecidableEq, Repr

def lowBytes : Nat → Nat → Bytes
  | 0, _ => []
  | count + 1, value => UInt8.ofNat value :: lowBytes count (value / 256)

def bytesValue : Bytes → Nat
  | [] => 0
  | byte :: rest => byte.toNat + 256 * bytesValue rest

def uint64Bytes (order : ByteOrder) (value : UInt64) : Bytes :=
  match order with
  | .littleEndian => lowBytes 8 value.toNat
  | .bigEndian => (lowBytes 8 value.toNat).reverse

-- memcpy of eight bytes into a uint64_t.
def uint64Value (order : ByteOrder) (data : Bytes) : UInt64 :=
  match order with
  | .littleEndian => UInt64.ofNat (bytesValue (data.take 8))
  | .bigEndian => UInt64.ofNat (bytesValue (data.take 8).reverse)

theorem low_bytes_length (count value : Nat) : (lowBytes count value).length = count := by
  induction count generalizing value with
  | zero => rfl
  | succ count ih => rw [lowBytes, List.length_cons, ih]

theorem low_bytes_value (count value : Nat) (fits : value < Nat.pow 256 count) :
    bytesValue (lowBytes count value) = value := by
  induction count generalizing value with
  | zero =>
      obtain rfl : value = 0 := Nat.lt_one_iff.mp fits
      rfl
  | succ count ih =>
      have smaller : value / 256 < Nat.pow 256 count :=
        Nat.div_lt_of_lt_mul (Nat.mul_comm (Nat.pow 256 count) 256 ▸ fits)
      rw [lowBytes, bytesValue, ih _ smaller, UInt8.toNat_ofNat']
      exact Nat.mod_add_div value 256

@[simp] theorem uint64_bytes_length (order : ByteOrder) (value : UInt64) : (uint64Bytes order value).length = 8 := by
  cases order with
  | littleEndian => exact low_bytes_length 8 _
  | bigEndian => exact List.length_reverse.trans (low_bytes_length 8 _)

theorem uint64_round_trip (order : ByteOrder) (value : UInt64) :
    uint64Value order (uint64Bytes order value) = value := by
  have whole : (lowBytes 8 value.toNat).take 8 = lowBytes 8 value.toNat :=
    List.take_of_length_le (Nat.le_of_eq (low_bytes_length 8 _))
  have same := low_bytes_value 8 value.toNat value.toNat_lt
  cases order with
  | littleEndian => rw [uint64Value, uint64Bytes, whole, same, UInt64.ofNat_toNat]
  | bigEndian =>
      have all : (lowBytes 8 value.toNat).reverse.take 8 = (lowBytes 8 value.toNat).reverse :=
        List.take_of_length_le (Nat.le_of_eq (List.length_reverse.trans (low_bytes_length 8 _)))
      rw [uint64Value, uint64Bytes, all, List.reverse_reverse, same, UInt64.ofNat_toNat]

variable {Object : Type}

-- type is an NSInteger enumeration, action an NSUInteger one.
structure Packet (Object : Type) where
  data : Option Object
  type : Int64
  action : UInt64
deriving DecidableEq

structure Coder (Object : Type) where
  objects : List (String × Option Object)
  integers : List (String × Int64)
deriving DecidableEq

def pocketKeyData : String := "data"
def pocketKeyType : String := "type"
def pocketKeyAction : String := "action"

def Packet.encodeWithCoder (packet : Packet Object) : Coder Object where
  objects := [(pocketKeyData, packet.data)]
  integers := [(pocketKeyType, packet.type), (pocketKeyAction, packet.action.toInt64)]

-- A missing object is nil, a missing integer zero.
def Packet.initWithCoder (coder : Coder Object) : Packet Object where
  data := (coder.objects.lookup pocketKeyData).join
  type := (coder.integers.lookup pocketKeyType).getD 0
  action := ((coder.integers.lookup pocketKeyAction).getD 0).toUInt64

theorem init_with_encoded (packet : Packet Object) : Packet.initWithCoder packet.encodeWithCoder = packet := by
  simp [Packet.initWithCoder, Packet.encodeWithCoder, pocketKeyData, pocketKeyType, pocketKeyAction, List.lookup_cons]

-- NSKeyedArchiver with one root object under the key "packet". Unarchiving gives
-- none where it raises, some none where there is no object under the key.
structure KeyedArchiver (Object : Type) where
  archive : Coder Object → Bytes
  unarchive : Bytes → Option (Option (Coder Object))

-- The archive of a packet can be sent, and unarchives to the values encoded.
structure Archives (archiver : KeyedArchiver Object) (packet : Packet Object) : Prop where
  nonempty : archiver.archive packet.encodeWithCoder ≠ []
  short : (archiver.archive packet.encodeWithCoder).length < UInt64.size
  unarchives : archiver.unarchive (archiver.archive packet.encodeWithCoder) = some (some packet.encodeWithCoder)

end CultivationMotain.SocketGame

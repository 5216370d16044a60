import Mathlib.Tactic.Ring
import CultivationMotain.Dispatch.TransformText

set_option autoImplicit false

namespace CultivationMotain.Dispatch.DataObjects

open ReferenceCounts

-- What a known character does: it has a digit, and counts as padding or not.
def advance (decoder : Decoder) (state : Decoding) (digit pads : Nat) : Decoding :=
  let x := (state.x * 2 ^ decoder.bits % sizeLimit + digit) % sizeLimit
  { x := x
    count := state.count + 1
    pad := state.pad + pads
    written := if (state.count + 1) % decoder.group = 0 then state.written ++ decoder.unpack x else state.written }

def Reads (decoder : Decoder) (byte : UInt8) (digit pads : Nat) : Prop :=
  ∀ state, decodeByte decoder state byte = some (advance decoder state digit pads)

theorem reads_of_table (decoder : Decoder) (byte : UInt8) (digit : Nat) (seen : visible byte = true)
    (inside : byte.toNat < decoder.tableSize) (listed : decoder.table.getD byte.toNat (-1) = digit) :
    Reads decoder byte digit 0 := by
  intro state
  have known : ¬(decoder.tableSize ≤ byte.toNat ∨ (digit : Int) = -1) := by omega
  have plain : ¬((digit : Int) = -2) := by omega
  rw [decodeByte, if_neg (by rw [seen]; exact Bool.true_eq_false.mp)]
  dsimp only
  rw [listed, if_neg known, advance]
  simp only [if_neg plain, Int.toNat_natCast, Nat.add_zero]

theorem reads_padding (decoder : Decoder) (inside : equalsSign.toNat < decoder.tableSize)
    (listed : decoder.table.getD equalsSign.toNat (-1) = -2) : Reads decoder equalsSign 0 1 := by
  intro state
  have known : ¬(decoder.tableSize ≤ equalsSign.toNat ∨ (-2 : Int) = -1) := by
    rintro (large | minus)
    · omega
    · exact absurd minus (by decide)
  rw [decodeByte, if_neg (by decide)]
  dsimp only
  rw [listed, if_neg known, advance]
  simp only [if_true]

theorem base64_reads (digit : Nat) (small : digit < 64) :
    Reads base64Decoder (charAt base64EncodeTable digit) digit 0 := by
  have all : ∀ digit < 64, visible (charAt base64EncodeTable digit) = true ∧
      (charAt base64EncodeTable digit).toNat < base64Decoder.tableSize ∧
      base64Decoder.table.getD (charAt base64EncodeTable digit).toNat (-1) = digit := by decide +kernel
  obtain ⟨seen, inside, listed⟩ := all digit small
  exact reads_of_table base64Decoder _ digit seen inside listed

theorem base32_reads (digit : Nat) (small : digit < 32) :
    Reads base32Decoder (charAt base32EncodeTable digit) digit 0 := by
  have all : ∀ digit < 32, visible (charAt base32EncodeTable digit) = true ∧
      (charAt base32EncodeTable digit).toNat < base32Decoder.tableSize ∧
      base32Decoder.table.getD (charAt base32EncodeTable digit).toNat (-1) = digit := by decide +kernel
  obtain ⟨seen, inside, listed⟩ := all digit small
  exact reads_of_table base32Decoder _ digit seen inside listed

theorem base64_padding : Reads base64Decoder equalsSign 0 1 :=
  reads_padding base64Decoder (by decide) (by decide +kernel)

theorem base32_padding : Reads base32Decoder equalsSign 0 1 :=
  reads_padding base32Decoder (by decide) (by decide +kernel)

theorem byte_at (x shift : Nat) : byteAt x shift = (x / 2 ^ shift % 2 ^ 8).toUInt8 := by
  have mask : (x >>> shift) &&& 0xff = (x >>> shift) % 2 ^ 8 := Nat.and_two_pow_sub_one_eq_mod _ 8
  rw [byteAt, mask, Nat.shiftRight_eq_div_pow]

-- What a digit adds to the low bits of x; the high ones do not matter.
theorem low_bits (x bits digit low value : Nat) (inside : bits + low ≤ 64) (known : x % 2 ^ low = value)
    (small : digit < 2 ^ bits) :
    (x * 2 ^ bits % sizeLimit + digit) % sizeLimit % 2 ^ (bits + low) = value * 2 ^ bits + digit := by
  have divides : 2 ^ (bits + low) ∣ sizeLimit := Nat.pow_dvd_pow 2 inside
  have bound : x % 2 ^ low < 2 ^ low := Nat.mod_lt _ (Nat.two_pow_pos low)
  have room : (x % 2 ^ low) * 2 ^ bits + digit < 2 ^ (bits + low) := by
    calc (x % 2 ^ low) * 2 ^ bits + digit < (x % 2 ^ low) * 2 ^ bits + 2 ^ bits := Nat.add_lt_add_left small _
      _ = (x % 2 ^ low + 1) * 2 ^ bits := (Nat.succ_mul _ _).symm
      _ ≤ 2 ^ low * 2 ^ bits := Nat.mul_le_mul_right _ bound
      _ = 2 ^ (bits + low) := by rw [Nat.add_comm, Nat.pow_add]
  have split : x * 2 ^ bits + digit = 2 ^ (bits + low) * (x / 2 ^ low) + (x % 2 ^ low * 2 ^ bits + digit) := by
    have parts : x = 2 ^ low * (x / 2 ^ low) + x % 2 ^ low := (Nat.div_add_mod x (2 ^ low)).symm
    calc x * 2 ^ bits + digit = (2 ^ low * (x / 2 ^ low) + x % 2 ^ low) * 2 ^ bits + digit := by rw [← parts]
      _ = 2 ^ (bits + low) * (x / 2 ^ low) + (x % 2 ^ low * 2 ^ bits + digit) := by rw [Nat.pow_add]; ring
  rw [Nat.mod_mod_of_dvd _ divides, Nat.add_mod, Nat.mod_mod_of_dvd _ divides, ← Nat.add_mod, split, Nat.mul_add_mod,
    Nat.mod_eq_of_lt room, known]

-- A character with its digit and whether it is padding.
structure Symbol where
  byte : UInt8
  digit : Nat
  pads : Nat

def horner (bits : Nat) (value : Nat) (symbols : List Symbol) : Nat :=
  symbols.foldl (fun sum symbol => sum * 2 ^ bits + symbol.digit) value

def padding (symbols : List Symbol) : Nat := (symbols.map Symbol.pads).sum

structure Legible (decoder : Decoder) (symbol : Symbol) : Prop where
  reads : Reads decoder symbol.byte symbol.digit symbol.pads
  small : symbol.digit < 2 ^ decoder.bits

-- Within a group nothing is written, and the digits fill the low bits of x.
theorem read_symbols (decoder : Decoder) (symbols : List Symbol) (state : Decoding) (low value : Nat)
    (legible : ∀ symbol ∈ symbols, Legible decoder symbol) (known : state.x % 2 ^ low = value)
    (room : decoder.bits * symbols.length + low ≤ 64)
    (inside : ∀ number, state.count < number → number ≤ state.count + symbols.length → number % decoder.group ≠ 0) :
    ∃ next, (symbols.map Symbol.byte).foldlM (decodeByte decoder) state = some next ∧
      next.count = state.count + symbols.length ∧ next.pad = state.pad + padding symbols ∧
      next.written = state.written ∧
      next.x % 2 ^ (decoder.bits * symbols.length + low) = horner decoder.bits value symbols := by
  induction symbols generalizing state low value with
  | nil => exact ⟨state, rfl, rfl, rfl, rfl, by rw [List.length_nil, Nat.mul_zero, Nat.zero_add]; exact known⟩
  | cons symbol rest ih =>
      have here := legible symbol List.mem_cons_self
      rw [List.length_cons, Nat.mul_succ] at room
      rw [List.length_cons] at inside
      obtain ⟨next, ran, count, pad, written, bits⟩ := ih (advance decoder state symbol.digit symbol.pads)
        (decoder.bits + low) (value * 2 ^ decoder.bits + symbol.digit)
        (fun other later => legible other (List.mem_cons_of_mem _ later))
        (low_bits state.x decoder.bits symbol.digit low value (by omega) known here.small) (by omega)
        (fun number past within => inside number (Nat.lt_of_succ_lt past)
          (by rw [advance] at within; dsimp only at within; omega))
      refine ⟨next, ?_, ?_, ?_, ?_, ?_⟩
      · rw [List.map_cons, List.foldlM_cons, here.reads state]
        exact ran
      · rw [count, List.length_cons, Nat.add_comm rest.length, ← Nat.add_assoc]
        rfl
      · rw [pad, padding, padding, List.map_cons, List.sum_cons, ← Nat.add_assoc]
        rfl
      · rw [written, advance]
        exact if_neg (inside (state.count + 1) (Nat.lt_succ_self _) (by omega))
      · rw [List.length_cons, Nat.mul_succ, Nat.add_assoc, bits]
        rfl

theorem read_group (decoder : Decoder) (symbols : List Symbol) (last : Symbol) (state : Decoding)
    (legible : ∀ symbol ∈ symbols ++ [last], Legible decoder symbol) (start : state.count % decoder.group = 0)
    (full : symbols.length + 1 = decoder.group) (room : decoder.bits * decoder.group ≤ 64) :
    ∃ next x, ((symbols ++ [last]).map Symbol.byte).foldlM (decodeByte decoder) state = some next ∧
      next.count = state.count + decoder.group ∧ next.pad = state.pad + padding (symbols ++ [last]) ∧
      next.written = state.written ++ decoder.unpack x ∧
      x % 2 ^ (decoder.bits * decoder.group) = horner decoder.bits 0 (symbols ++ [last]) := by
  have here := legible last (List.mem_append_right _ List.mem_cons_self)
  rw [← full, Nat.mul_succ] at room
  obtain ⟨middle, ran, count, pad, written, bits⟩ := read_symbols decoder symbols state 0 0
    (fun symbol member => legible symbol (List.mem_append_left _ member)) (Nat.mod_one _) (by omega)
    (fun number past within => by
      have group := Nat.div_add_mod state.count decoder.group
      have other := Nat.div_add_mod number decoder.group
      rw [start] at group
      intro whole
      rw [whole] at other
      have next : state.count / decoder.group < number / decoder.group :=
        Nat.lt_of_mul_lt_mul_left (by omega : decoder.group * (state.count / decoder.group) <
          decoder.group * (number / decoder.group))
      have apart : decoder.group * (state.count / decoder.group) + decoder.group ≤
          decoder.group * (number / decoder.group) := by
        rw [← Nat.mul_succ]
        exact Nat.mul_le_mul_left _ next
      omega)
  refine ⟨advance decoder middle last.digit last.pads, (advance decoder middle last.digit last.pads).x, ?_, ?_, ?_, ?_,
    ?_⟩
  · rw [List.map_append, List.foldlM_append, ran]
    exact (congrArg (fun step : Option Decoding => step.bind fun next => some next) (here.reads middle))
  · rw [advance, count, ← full]
    rfl
  · rw [advance, pad, padding, padding, List.map_append, List.sum_append, ← Nat.add_assoc]
    rfl
  · have ended : (middle.count + 1) % decoder.group = 0 := by
      rw [count, Nat.add_assoc, full, Nat.add_mod_right, start]
    rw [advance]
    dsimp only
    rw [if_pos ended, written]
  · have value := low_bits middle.x decoder.bits last.digit (decoder.bits * symbols.length + 0)
      (horner decoder.bits 0 symbols) (by omega) bits here.small
    rw [← full, Nat.mul_succ, Nat.add_comm _ decoder.bits, horner, List.foldl_append]
    exact value

theorem byte_of_value (byte : UInt8) (value : Nat) (same : value = byte.toNat) : value.toUInt8 = byte := by
  rw [same]
  exact UInt8.ofNat_toNat

theorem base64_unpack (x : Nat) (a b c : UInt8) (low : x % 2 ^ 24 = group3 a b c) :
    base64Decoder.unpack x = [a, b, c] := by
  have first := a.toNat_lt
  have second := b.toNat_lt
  have third := c.toNat_lt
  rw [group3] at low
  have bytes : base64Decoder.unpack x = [byteAt x 16, byteAt x 8, byteAt x 0] := rfl
  rw [bytes, byte_at, byte_at, byte_at, byte_of_value a _ (by omega), byte_of_value b _ (by omega),
    byte_of_value c _ (by omega)]

theorem base32_unpack (x : Nat) (a b c d e : UInt8) (low : x % 2 ^ 40 = group5 a b c d e) :
    base32Decoder.unpack x = [a, b, c, d, e] := by
  have first := a.toNat_lt
  have second := b.toNat_lt
  have third := c.toNat_lt
  have fourth := d.toNat_lt
  have fifth := e.toNat_lt
  rw [group5] at low
  have bytes : base32Decoder.unpack x = [byteAt x 32, byteAt x 24, byteAt x 16, byteAt x 8, byteAt x 0] := rfl
  rw [bytes, byte_at, byte_at, byte_at, byte_at, byte_at, byte_of_value a _ (by omega), byte_of_value b _ (by omega),
    byte_of_value c _ (by omega), byte_of_value d _ (by omega), byte_of_value e _ (by omega)]

-- A group of a text: the digits that have bits of it, and padding for the others.
def symbolsOf (table : List UInt8) (bits group value count : Nat) : List Symbol :=
  ((digits bits group value).take count).map (fun digit => ⟨charAt table digit, digit, 0⟩) ++
    List.replicate (group - count) ⟨equalsSign, 0, 1⟩

theorem digits_succ (bits count value : Nat) :
    digits bits (count + 1) value = value / 2 ^ (bits * count) % 2 ^ bits :: digits bits count value := by
  rw [digits, digits, List.range_succ_eq_map, List.map_cons, List.map_map]
  refine congrArg (_ :: ·) (List.map_congr_left fun place _ => ?_)
  dsimp only [Function.comp]
  rw [Nat.add_sub_cancel, Nat.sub_sub, Nat.succ_eq_add_one, Nat.add_comm place 1]

theorem digits_length (bits count value : Nat) : (digits bits count value).length = count := by
  rw [digits, List.length_map, List.length_range]

theorem digits_small (bits count value digit : Nat) (member : digit ∈ digits bits count value) : digit < 2 ^ bits := by
  obtain ⟨place, -, rfl⟩ := List.mem_map.mp member
  exact Nat.mod_lt _ (Nat.two_pow_pos bits)

-- The digits that the bits of a group do not reach.
theorem digits_drop (bits count value places : Nat) (low : 2 ^ (bits * (count - places)) ∣ value) :
    (digits bits count value).drop places = List.replicate (count - places) 0 := by
  refine List.eq_replicate_iff.mpr ⟨by rw [List.length_drop, digits_length], fun digit member => ?_⟩
  obtain ⟨index, inside, rfl⟩ := List.mem_iff_getElem.mp member
  rw [List.length_drop, digits_length] at inside
  obtain ⟨high, rfl⟩ := low
  have power : bits * (count - places) = bits * (count - 1 - (places + index)) + bits + bits * index := by
    rw [← Nat.mul_succ, ← Nat.mul_add]
    congr 1
    omega
  simp only [digits, List.getElem_drop, List.getElem_map, List.getElem_range]
  rw [power, Nat.pow_add, Nat.pow_add, Nat.mul_assoc, Nat.mul_assoc, Nat.mul_div_cancel_left _ (Nat.two_pow_pos _),
    Nat.mul_mod_right]

theorem horner_digits (bits count value : Nat) (symbols : List Symbol)
    (same : symbols.map Symbol.digit = digits bits count value) :
    horner bits (value / 2 ^ (bits * count)) symbols = value := by
  induction count generalizing symbols with
  | zero =>
      cases List.map_eq_nil_iff.mp same
      rw [Nat.mul_zero, Nat.pow_zero, Nat.div_one]
      rfl
  | succ count ih =>
      rw [digits_succ] at same
      obtain ⟨symbol, rest, rfl, here, later⟩ := List.map_eq_cons_iff.mp same
      have next : value / 2 ^ (bits * (count + 1)) * 2 ^ bits + symbol.digit = value / 2 ^ (bits * count) := by
        rw [here, Nat.mul_succ, Nat.pow_add, ← Nat.div_div_eq_div_mul, Nat.mul_comm _ (2 ^ bits), Nat.div_add_mod]
      rw [horner, List.foldl_cons, next]
      exact ih rest later

section Groups

variable (decoder : Decoder) (table : List UInt8)

structure Inverse : Prop where
  reads : ∀ digit < 2 ^ decoder.bits, Reads decoder (charAt table digit) digit 0
  padding : Reads decoder equalsSign 0 1
  plain : decoder.trim 0 = 0
  room : decoder.bits * decoder.group ≤ 64

theorem symbols_bytes (bits group value count : Nat) :
    (symbolsOf table bits group value count).map Symbol.byte =
      ((digits bits group value).take count).map (charAt table) ++ List.replicate (group - count) equalsSign := by
  rw [symbolsOf, List.map_append, List.map_map, List.map_replicate]
  rfl

theorem symbols_padding (bits group value count : Nat) :
    padding (symbolsOf table bits group value count) = group - count := by
  rw [padding, symbolsOf, List.map_append, List.map_map, List.map_replicate, List.sum_append, List.sum_replicate_nat,
    Nat.mul_one]
  have none_pads : ∀ listed : List Nat,
      (listed.map (Symbol.pads ∘ fun digit => ⟨charAt table digit, digit, 0⟩)).sum = 0 := by
    intro listed
    exact List.sum_eq_zero_iff.mpr fun pads member => by
      obtain ⟨digit, -, rfl⟩ := List.mem_map.mp member
      rfl
  rw [none_pads, Nat.zero_add]

theorem symbols_length (bits group value count : Nat) (inside : count ≤ group) :
    (symbolsOf table bits group value count).length = group := by
  rw [symbolsOf, List.length_append, List.length_map, List.length_take, digits_length, List.length_replicate,
    Nat.min_eq_left inside, Nat.add_sub_cancel' inside]

theorem symbols_horner (bits group value count : Nat) (small : value < 2 ^ (bits * group))
    (low : 2 ^ (bits * (group - count)) ∣ value) : horner bits 0 (symbolsOf table bits group value count) = value := by
  have same : (symbolsOf table bits group value count).map Symbol.digit = digits bits group value := by
    rw [symbolsOf, List.map_append, List.map_map, List.map_replicate]
    have taken : ∀ listed : List Nat,
        listed.map (Symbol.digit ∘ fun digit => ⟨charAt table digit, digit, 0⟩) = listed := List.map_id
    rw [taken, ← digits_drop bits group value count low, List.take_append_drop]
  rw [← Nat.div_eq_of_lt small]
  exact horner_digits bits group value _ same

variable (inverse : Inverse decoder table)

include inverse

theorem symbols_legible (value count : Nat) (symbol : Symbol)
    (member : symbol ∈ symbolsOf table decoder.bits decoder.group value count) : Legible decoder symbol := by
  rcases List.mem_append.mp member with listed | padded
  · obtain ⟨digit, taken, rfl⟩ := List.mem_map.mp listed
    have small := digits_small decoder.bits decoder.group value digit (List.mem_of_mem_take taken)
    exact ⟨inverse.reads digit small, small⟩
  · rw [List.eq_of_mem_replicate padded]
    exact ⟨inverse.padding, Nat.two_pow_pos _⟩

theorem read_piece (value count : Nat) (bytes : List UInt8) (state : Decoding) (start : state.count % decoder.group = 0)
    (some_group : 0 < decoder.group) (inside : count ≤ decoder.group)
    (small : value < 2 ^ (decoder.bits * decoder.group))
    (low : 2 ^ (decoder.bits * (decoder.group - count)) ∣ value)
    (unpack : ∀ x, x % 2 ^ (decoder.bits * decoder.group) = value → decoder.unpack x = bytes) :
    ∃ next, (((digits decoder.bits decoder.group value).take count).map (charAt table) ++
        List.replicate (decoder.group - count) equalsSign).foldlM (decodeByte decoder) state = some next ∧
      next.count % decoder.group = 0 ∧ next.pad = state.pad + (decoder.group - count) ∧
      next.written = state.written ++ bytes := by
  have length := symbols_length table decoder.bits decoder.group value count inside
  have bytes_of := symbols_bytes table decoder.bits decoder.group value count
  have pads := symbols_padding table decoder.bits decoder.group value count
  have sum := symbols_horner table decoder.bits decoder.group value count small low
  have legible := symbols_legible decoder table inverse value count
  generalize symbolsOf table decoder.bits decoder.group value count = symbols at length bytes_of pads sum legible
  obtain ⟨front, last, rfl⟩ : ∃ front last, symbols = front ++ [last] :=
    ⟨_, _, (List.dropLast_concat_getLast (List.ne_nil_of_length_pos (length ▸ some_group))).symm⟩
  rw [List.length_append, List.length_singleton] at length
  obtain ⟨next, x, ran, counted, pad, written, bits⟩ := read_group decoder front last state legible start length
    inverse.room
  rw [← bytes_of]
  refine ⟨next, ran, ?_, by rw [pad, pads], by rw [written, unpack x (bits.trans sum)]⟩
  rw [counted, Nat.add_mod_right, start]

end Groups

-- A text is decoded to the bytes and to those that its padding stands for.
structure Decodes (decoder : Decoder) (text bytes : List UInt8) (state next : Decoding) : Prop where
  ran : text.foldlM (decodeByte decoder) state = some next
  whole : next.count % decoder.group = 0
  padded : ∃ zeros pads, next.written = state.written ++ bytes ++ zeros ∧ next.pad = state.pad + pads ∧
    zeros.length = decoder.trim pads ∧ decoder.trim pads ≤ (decoder.unpack 0).length

theorem decodes_nil (decoder : Decoder) (plain : decoder.trim 0 = 0) (state : Decoding)
    (start : state.count % decoder.group = 0) : Decodes decoder [] [] state state :=
  ⟨rfl, start, [], 0, by rw [List.append_nil, List.append_nil], rfl, plain.symm,
    plain.le.trans (Nat.zero_le _)⟩

theorem decodes_group (decoder : Decoder) (text rest group bytes : List UInt8) (state middle next : Decoding)
    (ran : text.foldlM (decodeByte decoder) state = some middle) (pad : middle.pad = state.pad)
    (written : middle.written = state.written ++ group) (later : Decodes decoder rest bytes middle next) :
    Decodes decoder (text ++ rest) (group ++ bytes) state next := by
  obtain ⟨zeros, pads, all, count, trimmed⟩ := later.padded
  refine ⟨?_, later.whole, zeros, pads, ?_, by rw [count, pad], trimmed⟩
  · rw [List.foldlM_append, ran]
    exact later.ran
  · rw [all, written, List.append_assoc state.written]

theorem base64_inverse : Inverse base64Decoder base64EncodeTable := ⟨base64_reads, base64_padding, rfl, by decide⟩

theorem base32_inverse : Inverse base32Decoder base32EncodeTable := ⟨base32_reads, base32_padding, rfl, by decide⟩

theorem group3_small (a b c : UInt8) : group3 a b c < 2 ^ 24 := by
  have first := a.toNat_lt
  have second := b.toNat_lt
  have third := c.toNat_lt
  rw [group3]
  omega

theorem group5_small (a b c d e : UInt8) : group5 a b c d e < 2 ^ 40 := by
  have first := a.toNat_lt
  have second := b.toNat_lt
  have third := c.toNat_lt
  have fourth := d.toNat_lt
  have fifth := e.toNat_lt
  rw [group5]
  omega

theorem base64_decodes (bytes : List UInt8) (state : Decoding) (start : state.count % 4 = 0) :
    ∃ next, Decodes base64Decoder (base64Text bytes) bytes state next := by
  -- the group with its first count characters, and the padding
  have piece : ∀ (a b c : UInt8) (count : Nat) (state : Decoding), state.count % 4 = 0 → count ≤ 4 →
      2 ^ (6 * (4 - count)) ∣ group3 a b c →
      ∃ next, (base64Chars (group3 a b c) count ++ List.replicate (4 - count) equalsSign).foldlM
          (decodeByte base64Decoder) state = some next ∧
        next.count % 4 = 0 ∧ next.pad = state.pad + (4 - count) ∧ next.written = state.written ++ [a, b, c] :=
    fun a b c count state start inside low =>
      read_piece base64Decoder base64EncodeTable base64_inverse (group3 a b c) count [a, b, c] state start (by decide)
        inside (group3_small a b c) low fun x known => base64_unpack x a b c known
  induction bytes using base64Text.induct generalizing state with
  | case1 a b c rest ih =>
      obtain ⟨middle, ran, count, pad, written⟩ := piece a b c 4 state start (le_refl 4) (one_dvd _)
      obtain ⟨next, later⟩ := ih middle count
      rw [Nat.sub_self, List.replicate_zero, List.append_nil] at ran
      exact ⟨next, decodes_group base64Decoder _ _ [a, b, c] rest state middle next ran pad written later⟩
  | case2 a b =>
      obtain ⟨middle, ran, count, pad, written⟩ := piece a b 0 3 state start (by decide)
        (by rw [group3, UInt8.toNat_zero]; omega)
      exact ⟨middle, ran, count, [0], 1, by rw [written, List.append_assoc]; rfl, pad, rfl, by decide⟩
  | case3 a =>
      obtain ⟨middle, ran, count, pad, written⟩ := piece a 0 0 2 state start (by decide)
        (by rw [group3, UInt8.toNat_zero]; omega)
      exact ⟨middle, ran, count, [0, 0], 2, by rw [written, List.append_assoc]; rfl, pad, rfl, by decide⟩
  | case4 => exact ⟨state, decodes_nil base64Decoder rfl state start⟩

theorem base32_decodes (bytes : List UInt8) (state : Decoding) (start : state.count % 8 = 0) :
    ∃ next, Decodes base32Decoder (base32Text base32EncodeTable bytes) bytes state next := by
  have piece : ∀ (a b c d e : UInt8) (count : Nat) (state : Decoding), state.count % 8 = 0 → count ≤ 8 →
      2 ^ (5 * (8 - count)) ∣ group5 a b c d e →
      ∃ next, (base32Chars base32EncodeTable (group5 a b c d e) count ++ List.replicate (8 - count) equalsSign).foldlM
          (decodeByte base32Decoder) state = some next ∧
        next.count % 8 = 0 ∧ next.pad = state.pad + (8 - count) ∧ next.written = state.written ++ [a, b, c, d, e] :=
    fun a b c d e count state start inside low =>
      read_piece base32Decoder base32EncodeTable base32_inverse (group5 a b c d e) count [a, b, c, d, e] state start
        (by decide) inside (group5_small a b c d e) low fun x known => base32_unpack x a b c d e known
  induction bytes using base32Text.induct generalizing state with
  | case1 a b c d e rest ih =>
      obtain ⟨middle, ran, count, pad, written⟩ := piece a b c d e 8 state start (le_refl 8) (one_dvd _)
      obtain ⟨next, later⟩ := ih middle count
      rw [Nat.sub_self, List.replicate_zero, List.append_nil] at ran
      exact ⟨next, decodes_group base32Decoder _ _ [a, b, c, d, e] rest state middle next ran pad written later⟩
  | case2 a b c d =>
      obtain ⟨middle, ran, count, pad, written⟩ := piece a b c d 0 7 state start (by decide)
        (by rw [group5, UInt8.toNat_zero]; omega)
      exact ⟨middle, ran, count, [0], 1, by rw [written, List.append_assoc]; rfl, pad, rfl, by decide⟩
  | case3 a b c =>
      obtain ⟨middle, ran, count, pad, written⟩ := piece a b c 0 0 5 state start (by decide)
        (by rw [group5, UInt8.toNat_zero]; omega)
      exact ⟨middle, ran, count, [0, 0], 3, by rw [written, List.append_assoc]; rfl, pad, rfl, by decide⟩
  | case4 a b =>
      obtain ⟨middle, ran, count, pad, written⟩ := piece a b 0 0 0 4 state start (by decide)
        (by rw [group5, UInt8.toNat_zero]; omega)
      exact ⟨middle, ran, count, [0, 0, 0], 4, by rw [written, List.append_assoc]; rfl, pad, rfl, by decide⟩
  | case5 a =>
      obtain ⟨middle, ran, count, pad, written⟩ := piece a 0 0 0 0 2 state start (by decide)
        (by rw [group5, UInt8.toNat_zero]; omega)
      exact ⟨middle, ran, count, [0, 0, 0, 0], 6, by rw [written, List.append_assoc]; rfl, pad, rfl, by decide⟩
  | case6 => exact ⟨state, decodes_nil base32Decoder rfl state start⟩

end CultivationMotain.Dispatch.DataObjects

import CultivationMotain.Dispatch.TransformDecode

set_option autoImplicit false

namespace CultivationMotain.Dispatch.DataObjects

open ReferenceCounts

-- The digits of a group, each of so many bits, the highest first.
def digits (bits count value : Nat) : List Nat :=
  (List.range count).map fun place => value / 2 ^ (bits * (count - 1 - place)) % 2 ^ bits

def group3 (a b c : UInt8) : Nat := a.toNat * 2 ^ 16 + b.toNat * 2 ^ 8 + c.toNat

def group5 (a b c d e : UInt8) : Nat :=
  a.toNat * 2 ^ 32 + b.toNat * 2 ^ 24 + c.toNat * 2 ^ 16 + d.toNat * 2 ^ 8 + e.toNat

def base64Chars (value count : Nat) : List UInt8 := ((digits 6 4 value).take count).map (charAt base64EncodeTable)

def base32Chars (table : List UInt8) (value count : Nat) : List UInt8 :=
  ((digits 5 8 value).take count).map (charAt table)

-- A text is the digits of one group after the other; of a last group that is
-- short, those that have bits of it, and padding for the others.
def base64Text : List UInt8 → List UInt8
  | a :: b :: c :: rest => base64Chars (group3 a b c) 4 ++ base64Text rest
  | [a, b] => base64Chars (group3 a b 0) 3 ++ List.replicate 1 equalsSign
  | [a] => base64Chars (group3 a 0 0) 2 ++ List.replicate 2 equalsSign
  | [] => []

def base32Text (table : List UInt8) : List UInt8 → List UInt8
  | a :: b :: c :: d :: e :: rest => base32Chars table (group5 a b c d e) 8 ++ base32Text table rest
  | [a, b, c, d] => base32Chars table (group5 a b c d 0) 7 ++ List.replicate 1 equalsSign
  | [a, b, c] => base32Chars table (group5 a b c 0 0) 5 ++ List.replicate 3 equalsSign
  | [a, b] => base32Chars table (group5 a b 0 0 0) 4 ++ List.replicate 4 equalsSign
  | [a] => base32Chars table (group5 a 0 0 0 0) 2 ++ List.replicate 6 equalsSign
  | [] => []

-- The two bytes side by side, as the shifts put them.
theorem shifted_or (last curr shift : Nat) (small : curr < 256) (inside : shift ≤ 8) :
    (last <<< shift) ||| (curr >>> (8 - shift)) = (last * 256 + curr) / 2 ^ (8 - shift) := by
  have fits : curr / 2 ^ (8 - shift) < 2 ^ shift := by
    rw [Nat.div_lt_iff_lt_mul (Nat.two_pow_pos _), ← Nat.pow_add, Nat.add_sub_cancel' inside]
    exact small
  have whole : (256 : Nat) = 2 ^ shift * 2 ^ (8 - shift) := by rw [← Nat.pow_add, Nat.add_sub_cancel' inside]
  rw [Nat.shiftRight_eq_div_pow, ← Nat.shiftLeft_add_eq_or_of_lt fits, Nat.shiftLeft_eq, whole, ← Nat.mul_assoc,
    Nat.mul_comm (last * 2 ^ shift), Nat.mul_add_div (Nat.two_pow_pos _)]

theorem mask_six (value : Nat) : value &&& 0x3f = value % 2 ^ 6 := Nat.and_two_pow_sub_one_eq_mod value 6

theorem mask_five (value : Nat) : value &&& 0x1f = value % 2 ^ 5 := Nat.and_two_pow_sub_one_eq_mod value 5

theorem masked_tail (value : UInt8) :
    (value.toNat <<< 4) &&& 0x30 = value.toNat * 16 % 64 ∧ (value.toNat <<< 2) &&& 0x3c = value.toNat * 4 % 64 ∧
      (value.toNat <<< 2) &&& 0x1c = value.toNat * 4 % 32 ∧ (value.toNat <<< 4) &&& 0x10 = value.toNat * 16 % 32 ∧
      (value.toNat <<< 1) &&& 0x1e = value.toNat * 2 % 32 ∧ (value.toNat <<< 3) &&& 0x18 = value.toNat * 8 % 32 := by
  have all : ∀ number < 256, (number <<< 4) &&& 0x30 = number * 16 % 64 ∧ (number <<< 2) &&& 0x3c = number * 4 % 64 ∧
      (number <<< 2) &&& 0x1c = number * 4 % 32 ∧ (number <<< 4) &&& 0x10 = number * 16 % 32 ∧
      (number <<< 1) &&& 0x1e = number * 2 % 32 ∧ (number <<< 3) &&& 0x18 = number * 8 % 32 := by decide +kernel
  exact all value.toNat value.toNat_lt

-- The byte that the tail of an encoding is made of.
def endOf (last : Nat) (bytes : List UInt8) : Nat := bytes.foldl (fun _ byte => byte.toNat) last

section Base64

variable (count last : Nat) (a b c : UInt8) (rest : List UInt8)

def base64Digit (value place : Nat) : UInt8 := charAt base64EncodeTable (value / 2 ^ place % 2 ^ 6)

-- What the loop writes for the bytes of a group is the digits of the group.
theorem base64_first (start : count % 3 = 0) :
    encodeBytes base64Encoder count last (a :: rest) =
      base64Digit (group3 a b c) 18 :: encodeBytes base64Encoder (count + 1) a.toNat rest := by
  have digit : (a.toNat >>> 2) &&& 0x3f = group3 a b c / 2 ^ 18 % 2 ^ 6 := by
    have second := b.toNat_lt
    have third := c.toNat_lt
    rw [mask_six, Nat.shiftRight_eq_div_pow, group3]
    omega
  have emitted : base64Encoder.emit count (if count % base64Encoder.group = 0 then 0 else last) a.toNat =
      [base64Digit (group3 a b c) 18] := by
    simp only [base64Encoder, base64Emit, start, digit, base64Digit]
  rw [encodeBytes, emitted, List.singleton_append]

theorem base64_second (start : count % 3 = 1) :
    encodeBytes base64Encoder count a.toNat (b :: rest) =
      base64Digit (group3 a b c) 12 :: encodeBytes base64Encoder (count + 1) b.toNat rest := by
  have digit : ((a.toNat <<< 4) ||| (b.toNat >>> 4)) &&& 0x3f = group3 a b c / 2 ^ 12 % 2 ^ 6 := by
    have small := c.toNat_lt
    rw [mask_six, shifted_or a.toNat b.toNat 4 b.toNat_lt (by decide), group3]
    omega
  have emitted : base64Encoder.emit count (if count % base64Encoder.group = 0 then 0 else a.toNat) b.toNat =
      [base64Digit (group3 a b c) 12] := by
    simp only [base64Encoder, base64Emit, start, Nat.one_ne_zero, if_false, digit, base64Digit]
  rw [encodeBytes, emitted, List.singleton_append]

theorem base64_third (start : count % 3 = 2) :
    encodeBytes base64Encoder count b.toNat (c :: rest) =
      base64Digit (group3 a b c) 6 :: base64Digit (group3 a b c) 0 ::
        encodeBytes base64Encoder (count + 1) c.toNat rest := by
  have digit : ((b.toNat <<< 2) ||| (c.toNat >>> 6)) &&& 0x3f = group3 a b c / 2 ^ 6 % 2 ^ 6 := by
    rw [mask_six, shifted_or b.toNat c.toNat 2 c.toNat_lt (by decide), group3]
    omega
  have final : c.toNat &&& 0x3f = group3 a b c / 2 ^ 0 % 2 ^ 6 := by
    rw [mask_six, group3]
    omega
  have emitted : base64Encoder.emit count (if count % base64Encoder.group = 0 then 0 else b.toNat) c.toNat =
      [base64Digit (group3 a b c) 6, base64Digit (group3 a b c) 0] := by
    simp only [base64Encoder, base64Emit, start, OfNat.ofNat_ne_zero, if_false, digit, final, base64Digit]
  rw [encodeBytes, emitted]
  rfl

theorem base64_tail_one (start : count % 3 = 1) :
    base64Tail count a.toNat = base64Digit (group3 a 0 0) 12 :: List.replicate 2 equalsSign := by
  have digit : (a.toNat <<< 4) &&& 0x30 = group3 a 0 0 / 2 ^ 12 % 2 ^ 6 := by
    rw [(masked_tail a).1, group3, UInt8.toNat_zero]
    omega
  simp only [base64Tail, start, digit, base64Digit, List.replicate]

theorem base64_tail_two (start : count % 3 = 2) :
    base64Tail count b.toNat = base64Digit (group3 a b 0) 6 :: List.replicate 1 equalsSign := by
  have digit : (b.toNat <<< 2) &&& 0x3c = group3 a b 0 / 2 ^ 6 % 2 ^ 6 := by
    rw [(masked_tail b).2.1, group3, UInt8.toNat_zero]
    omega
  simp only [base64Tail, start, digit, base64Digit, List.replicate]

end Base64

-- By induction on the groups of the text.
theorem base64_text (bytes : List UInt8) (count last : Nat) (start : count % 3 = 0) :
    encodeBytes base64Encoder count last bytes ++ base64Tail (count + bytes.length) (endOf last bytes) =
      base64Text bytes := by
  induction bytes using base64Text.induct generalizing count last with
  | case1 a b c rest ih =>
      have length : count + (a :: b :: c :: rest).length = count + 1 + 1 + 1 + rest.length := by
        simp only [List.length_cons]
        omega
      rw [base64_first count last a b c _ start, base64_second (count + 1) a b c _ (by omega),
        base64_third (count + 1 + 1) a b c _ (by omega), base64Text, length,
        ← ih (count + 1 + 1 + 1) c.toNat (by omega)]
      rfl
  | case2 a b =>
      rw [base64_first count last a b 0 _ start, base64_second (count + 1) a b 0 _ (by omega), base64Text]
      exact congrArg (_ :: _ :: ·) (base64_tail_two (count + 2) a b (by omega))
  | case3 a =>
      rw [base64_first count last a 0 0 _ start, base64Text]
      exact congrArg (_ :: ·) (base64_tail_one (count + 1) a (by omega))
  | case4 =>
      simp only [List.length_nil, Nat.add_zero, base64Tail, start]
      rfl

section Base32

variable (table : List UInt8) (count last : Nat) (a b c d e : UInt8) (rest : List UInt8)

def base32Digit (value place : Nat) : UInt8 := charAt table (value / 2 ^ place % 2 ^ 5)

theorem base32_first (start : count % 5 = 0) :
    encodeBytes (base32ToTable table) count last (a :: rest) =
      base32Digit table (group5 a b c d e) 35 :: encodeBytes (base32ToTable table) (count + 1) a.toNat rest := by
  have digit : (a.toNat >>> 3) &&& 0x1f = group5 a b c d e / 2 ^ 35 % 2 ^ 5 := by
    have small2 := b.toNat_lt
    have small3 := c.toNat_lt
    have small4 := d.toNat_lt
    have small5 := e.toNat_lt
    rw [mask_five, Nat.shiftRight_eq_div_pow, group5]
    omega
  have emitted : (base32ToTable table).emit count (if count % (base32ToTable table).group = 0 then 0 else last)
      a.toNat = [base32Digit table (group5 a b c d e) 35] := by
    simp only [base32ToTable, base32Emit, start, digit, base32Digit]
  rw [encodeBytes, emitted, List.singleton_append]

theorem base32_second (start : count % 5 = 1) :
    encodeBytes (base32ToTable table) count a.toNat (b :: rest) =
      base32Digit table (group5 a b c d e) 30 :: base32Digit table (group5 a b c d e) 25 ::
        encodeBytes (base32ToTable table) (count + 1) b.toNat rest := by
  have digit : ((a.toNat <<< 2) ||| (b.toNat >>> 6)) &&& 0x1f = group5 a b c d e / 2 ^ 30 % 2 ^ 5 := by
    have small3 := c.toNat_lt
    have small4 := d.toNat_lt
    have small5 := e.toNat_lt
    rw [mask_five, shifted_or a.toNat b.toNat 2 b.toNat_lt (by decide), group5]
    omega
  have final : (b.toNat >>> 1) &&& 0x1f = group5 a b c d e / 2 ^ 25 % 2 ^ 5 := by
    have small3 := c.toNat_lt
    have small4 := d.toNat_lt
    have small5 := e.toNat_lt
    rw [mask_five, Nat.shiftRight_eq_div_pow, group5]
    omega
  have emitted : (base32ToTable table).emit count (if count % (base32ToTable table).group = 0 then 0 else a.toNat)
      b.toNat = [base32Digit table (group5 a b c d e) 30, base32Digit table (group5 a b c d e) 25] := by
    simp only [base32ToTable, base32Emit, start, Nat.one_ne_zero, if_false, digit, final, base32Digit]
  rw [encodeBytes, emitted]
  rfl

theorem base32_third (start : count % 5 = 2) :
    encodeBytes (base32ToTable table) count b.toNat (c :: rest) =
      base32Digit table (group5 a b c d e) 20 :: encodeBytes (base32ToTable table) (count + 1) c.toNat rest := by
  have digit : ((b.toNat <<< 4) ||| (c.toNat >>> 4)) &&& 0x1f = group5 a b c d e / 2 ^ 20 % 2 ^ 5 := by
    have small4 := d.toNat_lt
    have small5 := e.toNat_lt
    rw [mask_five, shifted_or b.toNat c.toNat 4 c.toNat_lt (by decide), group5]
    omega
  have emitted : (base32ToTable table).emit count (if count % (base32ToTable table).group = 0 then 0 else b.toNat)
      c.toNat = [base32Digit table (group5 a b c d e) 20] := by
    simp only [base32ToTable, base32Emit, start, OfNat.ofNat_ne_zero, if_false, digit, base32Digit]
  rw [encodeBytes, emitted, List.singleton_append]

theorem base32_fourth (start : count % 5 = 3) :
    encodeBytes (base32ToTable table) count c.toNat (d :: rest) =
      base32Digit table (group5 a b c d e) 15 :: base32Digit table (group5 a b c d e) 10 ::
        encodeBytes (base32ToTable table) (count + 1) d.toNat rest := by
  have digit : ((c.toNat <<< 1) ||| (d.toNat >>> 7)) &&& 0x1f = group5 a b c d e / 2 ^ 15 % 2 ^ 5 := by
    have small5 := e.toNat_lt
    rw [mask_five, shifted_or c.toNat d.toNat 1 d.toNat_lt (by decide), group5]
    omega
  have final : (d.toNat >>> 2) &&& 0x1f = group5 a b c d e / 2 ^ 10 % 2 ^ 5 := by
    have small5 := e.toNat_lt
    rw [mask_five, Nat.shiftRight_eq_div_pow, group5]
    omega
  have emitted : (base32ToTable table).emit count (if count % (base32ToTable table).group = 0 then 0 else c.toNat)
      d.toNat = [base32Digit table (group5 a b c d e) 15, base32Digit table (group5 a b c d e) 10] := by
    simp only [base32ToTable, base32Emit, start, OfNat.ofNat_ne_zero, if_false, digit, final, base32Digit]
  rw [encodeBytes, emitted]
  rfl

theorem base32_fifth (start : count % 5 = 4) :
    encodeBytes (base32ToTable table) count d.toNat (e :: rest) =
      base32Digit table (group5 a b c d e) 5 :: base32Digit table (group5 a b c d e) 0 ::
        encodeBytes (base32ToTable table) (count + 1) e.toNat rest := by
  have digit : ((d.toNat <<< 3) ||| (e.toNat >>> 5)) &&& 0x1f = group5 a b c d e / 2 ^ 5 % 2 ^ 5 := by
    rw [mask_five, shifted_or d.toNat e.toNat 3 e.toNat_lt (by decide), group5]
    omega
  have final : e.toNat &&& 0x1f = group5 a b c d e / 2 ^ 0 % 2 ^ 5 := by
    rw [mask_five, group5]
    omega
  have emitted : (base32ToTable table).emit count (if count % (base32ToTable table).group = 0 then 0 else d.toNat)
      e.toNat = [base32Digit table (group5 a b c d e) 5, base32Digit table (group5 a b c d e) 0] := by
    simp only [base32ToTable, base32Emit, start, OfNat.ofNat_ne_zero, if_false, digit, final, base32Digit]
  rw [encodeBytes, emitted]
  rfl

theorem base32_tail_one (start : count % 5 = 1) :
    base32Tail table count a.toNat =
      base32Digit table (group5 a 0 0 0 0) 30 :: List.replicate 6 equalsSign := by
  have masked := masked_tail a
  have digit : (a.toNat <<< 2) &&& 0x1c = group5 a 0 0 0 0 / 2 ^ 30 % 2 ^ 5 := by
    rw [masked.2.2.1, group5, UInt8.toNat_zero]
    omega
  simp only [base32Tail, start, digit, base32Digit]

theorem base32_tail_two (start : count % 5 = 2) :
    base32Tail table count b.toNat =
      base32Digit table (group5 a b 0 0 0) 20 :: List.replicate 4 equalsSign := by
  have masked := masked_tail b
  have digit : (b.toNat <<< 4) &&& 0x10 = group5 a b 0 0 0 / 2 ^ 20 % 2 ^ 5 := by
    rw [masked.2.2.2.1, group5, UInt8.toNat_zero]
    omega
  simp only [base32Tail, start, digit, base32Digit]

theorem base32_tail_three (start : count % 5 = 3) :
    base32Tail table count c.toNat =
      base32Digit table (group5 a b c 0 0) 15 :: List.replicate 3 equalsSign := by
  have masked := masked_tail c
  have digit : (c.toNat <<< 1) &&& 0x1e = group5 a b c 0 0 / 2 ^ 15 % 2 ^ 5 := by
    rw [masked.2.2.2.2.1, group5, UInt8.toNat_zero]
    omega
  simp only [base32Tail, start, digit, base32Digit]

theorem base32_tail_four (start : count % 5 = 4) :
    base32Tail table count d.toNat =
      base32Digit table (group5 a b c d 0) 5 :: List.replicate 1 equalsSign := by
  have masked := masked_tail d
  have digit : (d.toNat <<< 3) &&& 0x18 = group5 a b c d 0 / 2 ^ 5 % 2 ^ 5 := by
    rw [masked.2.2.2.2.2, group5, UInt8.toNat_zero]
    omega
  simp only [base32Tail, start, digit, base32Digit]

end Base32

theorem base32_text (table bytes : List UInt8) (count last : Nat) (start : count % 5 = 0) :
    encodeBytes (base32ToTable table) count last bytes ++
        base32Tail table (count + bytes.length) (endOf last bytes) = base32Text table bytes := by
  induction bytes using base32Text.induct generalizing count last with
  | case1 a b c d e rest ih =>
      have length : count + (a :: b :: c :: d :: e :: rest).length = count + 1 + 1 + 1 + 1 + 1 + rest.length := by
        simp only [List.length_cons]
        omega
      rw [base32_first table count last a b c d e _ start, base32_second table (count + 1) a b c d e _ (by omega),
        base32_third table (count + 1 + 1) a b c d e _ (by omega),
        base32_fourth table (count + 1 + 1 + 1) a b c d e _ (by omega),
        base32_fifth table (count + 1 + 1 + 1 + 1) a b c d e _ (by omega), base32Text, length,
        ← ih (count + 1 + 1 + 1 + 1 + 1) e.toNat (by omega)]
      rfl
  | case2 a b c d =>
      rw [base32_first table count last a b c d 0 _ start, base32_second table (count + 1) a b c d 0 _ (by omega),
        base32_third table (count + 1 + 1) a b c d 0 _ (by omega),
        base32_fourth table (count + 1 + 1 + 1) a b c d 0 _ (by omega), base32Text]
      exact congrArg (_ :: _ :: _ :: _ :: _ :: _ :: ·) (base32_tail_four table (count + 4) a b c d (by omega))
  | case3 a b c =>
      rw [base32_first table count last a b c 0 0 _ start, base32_second table (count + 1) a b c 0 0 _ (by omega),
        base32_third table (count + 1 + 1) a b c 0 0 _ (by omega), base32Text]
      exact congrArg (_ :: _ :: _ :: _ :: ·) (base32_tail_three table (count + 3) a b c (by omega))
  | case4 a b =>
      rw [base32_first table count last a b 0 0 0 _ start, base32_second table (count + 1) a b 0 0 0 _ (by omega),
        base32Text]
      exact congrArg (_ :: _ :: _ :: ·) (base32_tail_two table (count + 2) a b (by omega))
  | case5 a =>
      rw [base32_first table count last a 0 0 0 0 _ start, base32Text]
      exact congrArg (_ :: ·) (base32_tail_one table (count + 1) a (by omega))
  | case6 =>
      simp only [List.length_nil, Nat.add_zero, base32Tail, start]
      rfl

section Regions

variable (encoder : Encoder)

theorem encode_append (first second : List UInt8) (count last : Nat) :
    encodeBytes encoder count last (first ++ second) =
      encodeBytes encoder count last first ++ encodeBytes encoder (count + first.length) (endOf last first) second := by
  induction first generalizing count last with
  | nil => rfl
  | cons curr rest ih =>
      rw [List.cons_append, encodeBytes, encodeBytes, ih, List.append_assoc, List.length_cons, Nat.add_right_comm,
        Nat.add_assoc]
      rfl

-- The first byte of a group does not depend on the one before it.
theorem encode_start (bytes : List UInt8) (count last other : Nat) (start : count % encoder.group = 0) :
    encodeBytes encoder count last bytes = encodeBytes encoder count other bytes := by
  cases bytes with
  | nil => rfl
  | cons curr rest => rw [encodeBytes, encodeBytes, if_pos start, if_pos start]

theorem end_of_append (last : Nat) (first second : List UInt8) :
    endOf last (first ++ second) = endOf (endOf last first) second := List.foldl_append

theorem end_of_last (last : Nat) (bytes : List UInt8) (some_bytes : bytes ≠ []) : endOf last bytes = lastOf bytes := by
  obtain ⟨front, final, rfl⟩ : ∃ front final, bytes = front ++ [final] :=
    ⟨_, _, (List.dropLast_concat_getLast some_bytes).symm⟩
  rw [end_of_append, lastOf, List.getLast?_concat]
  rfl

theorem end_of_read (before : List UInt8) (last : Nat) (some_bytes : before ≠ []) :
    ∃ byte, before[before.length - 1]? = some byte ∧ byte.toNat = endOf last before := by
  obtain ⟨front, final, rfl⟩ : ∃ front final, before = front ++ [final] :=
    ⟨_, _, (List.dropLast_concat_getLast some_bytes).symm⟩
  refine ⟨final, ?_, ?_⟩
  · rw [← List.getLast?_eq_getElem?, List.getLast?_concat]
  · rw [end_of_append]
    rfl

-- By induction on the regions: before is what the encoder has seen.
theorem encode_visit (reads : Nat → Option UInt8) (bytes before : List UInt8) (parts : List (Nat × List UInt8))
    (some_parts : parts ≠ []) (some_bytes : ∀ part ∈ parts, part.2 ≠ [])
    (split : bytes = before ++ parts.flatMap Prod.snd)
    (read : ∀ offset < bytes.length, reads offset = bytes[offset]?) :
    visit (encodeRegion encoder bytes.length reads) (before.length, encodeBytes encoder 0 0 before) before.length
        parts =
      ((bytes.length, encodeBytes encoder 0 0 bytes ++ encoder.tail bytes.length (endOf 0 bytes)), true) := by
  induction parts generalizing before with
  | nil => exact absurd rfl some_parts
  | cons part rest ih =>
      obtain ⟨object, region⟩ := part
      have here : region ≠ [] := some_bytes (object, region) List.mem_cons_self
      rw [List.flatMap_cons, ← List.append_assoc] at split
      have counted : before.length + region.length = (before ++ region).length := (List.length_append).symm
      -- the byte before the region, where the encoder needs it
      obtain ⟨last, found, same⟩ : ∃ last : UInt8,
          (if before.length % encoder.group ≠ 0 ∧ region ≠ [] then reads (before.length - 1) else some 0) = some last ∧
            encodeBytes encoder before.length last.toNat region =
              encodeBytes encoder before.length (endOf 0 before) region := by
        by_cases start : before.length % encoder.group = 0
        · exact ⟨0, if_neg fun needed => needed.1 start, encode_start encoder region before.length _ _ start⟩
        · have seen : before ≠ [] := by
            rintro rfl
            exact start (Nat.zero_mod _)
          have inside : before.length - 1 < before.length := by
            have positive := List.length_pos_iff.mpr seen
            omega
          obtain ⟨byte, there, value⟩ := end_of_read before 0 seen
          refine ⟨byte, ?_, by rw [value]⟩
          rw [if_pos ⟨start, here⟩, read _ (by rw [split, List.length_append, List.length_append]; omega), split,
            List.append_assoc, List.getElem?_append_left inside, there]
      have written : encodeBytes encoder 0 0 before ++ encodeBytes encoder before.length (endOf 0 before) region =
          encodeBytes encoder 0 0 (before ++ region) := by
        rw [encode_append, Nat.zero_add]
      have emitted : encodeRegion encoder bytes.length reads (before.length, encodeBytes encoder 0 0 before)
          ⟨object, before.length, region⟩ =
          (if (before ++ region).length = bytes.length then
            (((before ++ region).length, encodeBytes encoder 0 0 (before ++ region) ++
              encoder.tail (before ++ region).length (lastOf region)), true)
          else (((before ++ region).length, encodeBytes encoder 0 0 (before ++ region)), true)) := by
        rw [encodeRegion, found, ← written, ← same, ← counted]
      cases rest with
      | nil =>
          rw [List.flatMap_nil, List.append_nil] at split
          have final : lastOf region = endOf 0 bytes := by
            rw [split, end_of_append, end_of_last _ region here]
          have whole : (before ++ region).length = bytes.length := by rw [split]
          rw [if_pos whole] at emitted
          rw [visit, emitted, if_pos rfl, visit, final, split]
      | cons next others =>
          have more : (next :: others).flatMap Prod.snd ≠ [] := by
            rw [List.flatMap_cons]
            exact List.append_ne_nil_of_left_ne_nil (some_bytes next (List.mem_cons_of_mem _ List.mem_cons_self)) _
          have shorter : ¬(before ++ region).length = bytes.length := by
            have positive := List.length_pos_iff.mpr more
            have total : bytes.length = (before ++ region).length + ((next :: others).flatMap Prod.snd).length := by
              rw [split, List.length_append]
            omega
          rw [if_neg shorter] at emitted
          rw [visit, emitted, if_pos rfl, counted]
          exact ih (before ++ region) (List.cons_ne_nil _ _)
            (fun part member => some_bytes part (List.mem_cons_of_mem _ member)) split

end Regions

end CultivationMotain.Dispatch.DataObjects

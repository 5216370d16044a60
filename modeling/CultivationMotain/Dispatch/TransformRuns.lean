import CultivationMotain.Dispatch.TransformRoundTrip

set_option autoImplicit false

namespace CultivationMotain.Dispatch.DataObjects

open ReferenceCounts

-- The groups that the bytes make, the last one perhaps not full.
def groups (length group : Nat) : Nat := (length + (group - 1)) / group

theorem groups_step (length group : Nat) (some_group : 0 < group) :
    groups (length + group) group = groups length group + 1 := by
  rw [groups, groups, Nat.add_right_comm, Nat.add_div_right _ some_group]

theorem howmany_groups (length group : Nat) (fits : length + (group - 1) < sizeLimit) :
    howmany length group = groups length group := by
  rw [howmany, groups, Nat.mod_eq_of_lt fits]

-- The sum comes round to less than a group.
theorem howmany_wrapped (length group : Nat) (bounded : length < sizeLimit) (small : group < sizeLimit)
    (wraps : sizeLimit ≤ length + (group - 1)) : howmany length group = 0 := by
  rw [howmany, Nat.mod_eq_sub_mod wraps, Nat.mod_eq_of_lt (by omega)]
  exact Nat.div_eq_of_lt (by omega)

theorem base64_text_length (bytes : List UInt8) : (base64Text bytes).length = groups bytes.length 3 * 4 := by
  have chars : ∀ value count, count ≤ 4 → (base64Chars value count).length = count := by
    intro value count inside
    rw [base64Chars, List.length_map, List.length_take, digits_length, Nat.min_eq_left inside]
  induction bytes using base64Text.induct with
  | case1 a b c rest ih =>
      rw [base64Text, List.length_append, chars _ 4 (by decide), ih]
      exact (Nat.add_comm _ _).trans ((congrArg (· * 4) (groups_step rest.length 3 (by decide))).trans
        (Nat.succ_mul _ _)).symm
  | case2 a b =>
      rw [base64Text, List.length_append, chars _ 3 (by decide)]
      simp [groups]
  | case3 a =>
      rw [base64Text, List.length_append, chars _ 2 (by decide)]
      simp [groups]
  | case4 => rfl

theorem base32_text_length (table bytes : List UInt8) :
    (base32Text table bytes).length = groups bytes.length 5 * 8 := by
  have chars : ∀ value count, count ≤ 8 → (base32Chars table value count).length = count := by
    intro value count inside
    rw [base32Chars, List.length_map, List.length_take, digits_length, Nat.min_eq_left inside]
  induction bytes using base32Text.induct with
  | case1 a b c d e rest ih =>
      rw [base32Text, List.length_append, chars _ 8 (by decide), ih]
      exact (Nat.add_comm _ _).trans ((congrArg (· * 8) (groups_step rest.length 5 (by decide))).trans
        (Nat.succ_mul _ _)).symm
  | case2 a b c d =>
      rw [base32Text, List.length_append, chars _ 7 (by decide)]
      simp [groups]
  | case3 a b c =>
      rw [base32Text, List.length_append, chars _ 5 (by decide)]
      simp [groups]
  | case4 a b =>
      rw [base32Text, List.length_append, chars _ 4 (by decide)]
      simp [groups]
  | case5 a =>
      rw [base32Text, List.length_append, chars _ 2 (by decide)]
      simp [groups]
  | case6 => rfl

-- What an encoder writes, without the regions and the buffer.
structure Writes (encoder : Encoder) (text : List UInt8 → List UInt8) : Prop where
  written : ∀ bytes, encodeBytes encoder 0 0 bytes ++ encoder.tail bytes.length (endOf 0 bytes) = text bytes
  length : ∀ bytes, (text bytes).length = groups bytes.length encoder.group * encoder.units
  some_group : 0 < encoder.group
  small_group : encoder.group < sizeLimit
  some_units : 0 < encoder.units

theorem base64_writes : Writes base64Encoder base64Text where
  written := by
    intro bytes
    have text := base64_text bytes 0 0 rfl
    rw [Nat.zero_add] at text
    exact text
  length := base64_text_length
  some_group := by decide
  small_group := by decide
  some_units := by decide

theorem base32_writes (table : List UInt8) : Writes (base32ToTable table) (base32Text table) where
  written := by
    intro bytes
    have text := base32_text table bytes 0 0 rfl
    rw [Nat.zero_add] at text
    exact text
  length := base32_text_length table
  some_group := Nat.succ_pos 4
  small_group := show 5 < sizeLimit by decide
  some_units := Nat.succ_pos 7

-- The answer for a text, which is null where its length is more than SIZE_T_MAX.
def encoded (sizeTMax : Fin sizeLimit) (text : List UInt8) : Result :=
  if text.length ≤ sizeTMax.val then .bytes text else .null

section Sessions

variable (session : Session) (valid : Valid session) (dd : Nat) (held : session.holds dd = true)

include valid held

theorem held_size : dispatchDataGetSize session.store dd = (contents session.store dd).length := by
  obtain ⟨data, present⟩ := held_live session valid dd held
  rw [dispatchDataGetSize, present, Option.elim_some, contents_length session.store valid.sound dd data present]

theorem held_bounded : (contents session.store dd).length < sizeLimit := by
  obtain ⟨data, present⟩ := held_live session valid dd held
  rw [contents_length session.store valid.sound dd data present]
  by_cases empty : dd = dispatchDataEmpty
  · rw [empty, empty_values session.store valid.sound] at present
    rw [← Option.some.inj present]
    exact Nat.two_pow_pos 64
  · exact (valid.sound.formed dd data present empty).bounded

theorem subrange_map (garbage : Nat → UInt8) (offset size : Nat)
    (inside : offset + size ≤ (contents session.store dd).length) :
    ∃ buffer, subrangeMap garbage session.store dd offset size = buffer ∧
      buffer.getD [] = slice (contents session.store dd) offset size := by
  obtain ⟨data, present⟩ := held_live session valid dd held
  obtain ⟨middle, part, ran, made⟩ := create_subrange_made (heldBy session) session.store valid.sound valid.accounted
    (dd + 1) dd data offset size present (Nat.lt_succ_self dd)
  obtain ⟨piece, there⟩ := made.live
  obtain ⟨next, mapped, buffer, map, bytes, -⟩ := create_map_made _ middle made.sound made.accounted garbage part piece
    there
  have sized : piece.size = size := by
    rw [← contents_length middle made.sound part piece there, made.made, slice, List.length_take, List.length_drop]
    omega
  refine ⟨buffer, ?_, bytes.trans made.made⟩
  rw [subrangeMap, dispatchDataCreateSubrange, ran, Option.bind_some, dispatchDataGetSize, there, Option.elim_some,
    if_pos sized, map, Option.bind_some]

theorem last_byte (garbage : Nat → UInt8) (offset : Nat) (inside : offset < (contents session.store dd).length) :
    lastByte garbage session.store dd offset = (contents session.store dd)[offset]? := by
  obtain ⟨buffer, mapped, bytes⟩ := subrange_map session valid dd held garbage offset 1 inside
  have single : slice (contents session.store dd) offset 1 = [(contents session.store dd)[offset]] := by
    rw [slice, List.drop_eq_getElem_cons inside, List.take_succ_cons, List.take_zero]
  rw [single] at bytes
  rw [lastByte, mapped, List.getElem?_eq_getElem inside]
  cases buffer with
  | none => cases bytes
  | some found =>
      rw [Option.getD_some] at bytes
      rw [bytes, Option.bind_some, List.head?_cons]

theorem encode_visited (encoder : Encoder) (text : List UInt8 → List UInt8) (writes : Writes encoder text)
    (garbage : Nat → UInt8) :
    dispatchDataApply (encodeRegion encoder (contents session.store dd).length (lastByte garbage session.store dd))
        session.store dd (0, []) =
      some (((contents session.store dd).length, text (contents session.store dd)), true) := by
  obtain ⟨bytes, nonempty⟩ := held_regions session valid dd held
  rw [held_apply _ session valid dd held, Option.some_inj]
  by_cases some_parts : regions session.store dd = []
  · have nothing : contents session.store dd = [] := by rw [← bytes, some_parts, List.flatMap_nil]
    have none_written : text [] = [] := by
      refine List.eq_nil_of_length_eq_zero ?_
      rw [writes.length, List.length_nil, groups, Nat.zero_add, Nat.div_eq_of_lt, Nat.zero_mul]
      exact Nat.sub_lt writes.some_group Nat.one_pos
    rw [some_parts, nothing, none_written]
    rfl
  · have whole := encode_visit encoder (lastByte garbage session.store dd) (contents session.store dd) []
      (regions session.store dd) some_parts nonempty bytes.symm (last_byte session valid dd held garbage)
    rw [writes.written] at whole
    exact whole

-- Where the sum in howmany wraps, there is a text and no room for it.
theorem encode_held (sizeTMax : Fin sizeLimit) (encoder : Encoder) (text : List UInt8 → List UInt8)
    (writes : Writes encoder text) (garbage : Nat → UInt8) :
    transformTo sizeTMax encoder garbage session.store dd =
      if (contents session.store dd).length + (encoder.group - 1) < sizeLimit then
        some (encoded sizeTMax (text (contents session.store dd)))
      else none := by
  have visited := encode_visited session valid dd held encoder text writes garbage
  have length := writes.length (contents session.store dd)
  rw [transformTo, held_size session valid dd held]
  by_cases whole : (contents session.store dd).length + (encoder.group - 1) < sizeLimit
  · have room : sizeTMax.val / encoder.units < groups (contents session.store dd).length encoder.group ↔
        ¬(text (contents session.store dd)).length ≤ sizeTMax.val := by
      rw [Nat.div_lt_iff_lt_mul writes.some_units, length, Nat.not_le]
    rw [if_pos whole, howmany_groups _ _ whole]
    by_cases fits : (text (contents session.store dd)).length ≤ sizeTMax.val
    · rw [if_neg (fun large => room.mp large fits), encoded, if_pos fits, visited, Option.bind_some,
        if_neg Bool.true_eq_false.mp, length, if_neg (Nat.lt_irrefl _), Nat.sub_self, List.range_zero, List.map_nil,
        List.append_nil]
    · rw [if_pos (room.mpr fits), encoded, if_neg fits]
  · have wraps := Nat.le_of_not_lt whole
    have small := writes.small_group
    have bounded := held_bounded session valid dd held
    have some_text : 0 < (text (contents session.store dd)).length := by
      rw [length]
      refine Nat.mul_pos (Nat.div_pos ?_ writes.some_group) writes.some_units
      omega
    rw [if_neg whole, howmany_wrapped _ _ bounded small wraps, if_neg (Nat.not_lt_zero _), visited, Option.bind_some,
      if_neg Bool.true_eq_false.mp, Nat.zero_mul, if_pos some_text]

end Sessions

-- What the two encoders write for an object is its text, however its bytes are
-- split, and it fills the buffer; only for the last few sizes of a size_t is the
-- buffer empty.
theorem encode_text (events : List Event) (session : Session) (ran : Runs.run step begun events = some session)
    (dd : Nat) (held : session.holds dd = true) (sizeTMax : Fin sizeLimit) (garbage : Nat → UInt8) :
    (transformTo sizeTMax base64Encoder garbage session.store dd =
      if (contents session.store dd).length + 2 < sizeLimit then
        some (encoded sizeTMax (base64Text (contents session.store dd)))
      else none) ∧
      ∀ table, transformTo sizeTMax (base32ToTable table) garbage session.store dd =
        if (contents session.store dd).length + 4 < sizeLimit then
          some (encoded sizeTMax (base32Text table (contents session.store dd)))
        else none := by
  have valid := run_valid events session ran
  exact ⟨encode_held session valid dd held sizeTMax base64Encoder base64Text base64_writes garbage, fun table =>
    encode_held session valid dd held sizeTMax (base32ToTable table) (base32Text table) (base32_writes table) garbage⟩

-- The limit of the stubs for Linux.
theorem encode_text_spanning :
    transformTo ⟨0x7fffffff, by decide⟩ base64Encoder (fun _ => 0) spanned.store 4 =
      some (.bytes [65, 119, 81, 61]) := by
  have ran : Runs.run step begun spanning = some spanned := by decide
  have text := (encode_text spanning spanned ran 4 (by decide) ⟨0x7fffffff, by decide⟩ fun _ => 0).1
  rw [show contents spanned.store 4 = [3, 4] by decide] at text
  exact text.trans (by decide +kernel)

-- A decoder that reads back what an encoder writes.
structure Inverts (encoder : Encoder) (decoder : Decoder) (text : List UInt8 → List UInt8) : Prop where
  writes : Writes encoder text
  alphabetic : Alphabetic decoder
  same : encoder.units = decoder.group
  seen : ∀ bytes, ∀ byte ∈ text bytes, visible byte = true
  decodes : ∀ bytes, ∃ next, Decodes decoder (text bytes) bytes decodingStart.state next

theorem visible_table (table : List UInt8) (seen : ∀ byte ∈ table, visible byte = true) (index : Nat) :
    visible (charAt table index) = true := by
  rw [charAt, List.getD_eq_getElem?_getD]
  cases found : table[index]? with
  | none => rfl
  | some byte => exact seen byte (List.mem_of_getElem? found)

theorem visible_group (table : List UInt8) (seen : ∀ byte ∈ table, visible byte = true) (listed : List Nat) (pads : Nat)
    (byte : UInt8) (member : byte ∈ listed.map (charAt table) ++ List.replicate pads equalsSign) :
    visible byte = true := by
  rcases List.mem_append.mp member with digit | padding
  · obtain ⟨index, -, rfl⟩ := List.mem_map.mp digit
    exact visible_table table seen index
  · rw [List.eq_of_mem_replicate padding]
    rfl

theorem base64_inverts : Inverts base64Encoder base64Decoder base64Text where
  writes := base64_writes
  alphabetic := base64_alphabetic
  same := rfl
  seen := by
    intro bytes
    have table : ∀ byte ∈ base64EncodeTable, visible byte = true := by decide +kernel
    induction bytes using base64Text.induct with
    | case1 a b c rest ih =>
        intro byte member
        rcases List.mem_append.mp member with here | later
        · exact visible_group _ table _ 0 byte (List.mem_append_left _ here)
        · exact ih byte later
    | case2 a b => exact visible_group _ table _ 1
    | case3 a => exact visible_group _ table _ 2
    | case4 => exact fun byte member => absurd member List.not_mem_nil
  decodes := fun bytes => base64_decodes bytes decodingStart.state rfl

theorem base32_inverts :
    Inverts (base32ToTable base32EncodeTable) base32Decoder (base32Text base32EncodeTable) where
  writes := base32_writes base32EncodeTable
  alphabetic := base32_alphabetic
  same := rfl
  seen := by
    intro bytes
    have table : ∀ byte ∈ base32EncodeTable, visible byte = true := by decide +kernel
    induction bytes using base32Text.induct with
    | case1 a b c d e rest ih =>
        intro byte member
        rcases List.mem_append.mp member with here | later
        · exact visible_group _ table _ 0 byte (List.mem_append_left _ here)
        · exact ih byte later
    | case2 a b c d => exact visible_group _ table _ 1
    | case3 a b c => exact visible_group _ table _ 3
    | case4 a b => exact visible_group _ table _ 4
    | case5 a => exact visible_group _ table _ 6
    | case6 => exact fun byte member => absurd member List.not_mem_nil
  decodes := fun bytes => base32_decodes bytes decodingStart.state rfl

section Inverse

variable (encoder : Encoder) (decoder : Decoder) (text : List UInt8 → List UInt8)
  (inverts : Inverts encoder decoder text)

include inverts

theorem decode_text (bytes : List UInt8) :
    decodeWhole decoder (text bytes) = some bytes ∧
      decoder.trim ((text bytes).count equalsSign) ≤ (decoder.unpack 0).length := by
  obtain ⟨next, decodes⟩ := inverts.decodes bytes
  obtain ⟨zeros, pads, written, counted, length, fits⟩ := decodes.padded
  have counts := (decode_text_counts decoder inverts.alphabetic _ next _ decodes.ran).1
  have pad : next.pad = pads := counted.trans (Nat.zero_add pads)
  constructor
  · have whole : next.written = bytes ++ zeros := written
    rw [decodeWhole, decodes.ran, Option.map_some, whole, pad, ← length, List.length_append, Nat.add_sub_cancel,
      List.take_left]
  · have same : (text bytes).count equalsSign = pads := by
      rw [← pad, counts]
      exact (Nat.zero_add _).symm
    rw [same]
    exact fits

theorem closed_text (bytes : List UInt8) : Closed decoder (text bytes) := by
  have seen := inverts.seen bytes
  refine ⟨?_, (decode_text encoder decoder text inverts bytes).2⟩
  rw [List.countP_eq_length.mpr seen, inverts.writes.length, inverts.same, Nat.mul_mod_left]

theorem round_trip_held (session : Session) (valid : Valid session) (dd coded : Nat) (held : session.holds dd = true)
    (coded_held : session.holds coded = true) (sizeTMax : Fin sizeLimit) (garbage : Nat → UInt8)
    (stored : transformTo sizeTMax encoder garbage session.store dd = some (.bytes (contents session.store coded))) :
    transformFrom decoder session.store coded = some (.bytes (contents session.store dd)) ↔
      ∀ pad ∈ (padsAfter 0 (regions session.store coded)).dropLast, decoder.trim pad = 0 := by
  have bytes := (held_regions session valid coded coded_held).1
  have same : text (contents session.store dd) = contents session.store coded := by
    have answers := encode_held session valid dd held sizeTMax encoder text inverts.writes garbage
    rw [stored] at answers
    by_cases whole : (contents session.store dd).length + (encoder.group - 1) < sizeLimit
    · rw [if_pos whole, encoded, Option.some_inj] at answers
      by_cases fits : (text (contents session.store dd)).length ≤ sizeTMax.val
      · rw [if_pos fits] at answers
        exact (Result.bytes.inj answers).symm
      · rw [if_neg fits] at answers
        cases answers
    · rw [if_neg whole] at answers
      cases answers
  have decoded := (decode_text encoder decoder text inverts (contents session.store dd)).1
  rw [transformFrom, held_apply (decodeRegion decoder) session valid coded coded_held, Option.map_some,
    Option.some_inj]
  have closed := closed_text encoder decoder text inverts (contents session.store dd)
  rw [same, ← bytes] at closed decoded
  exact decode_split_iff decoder inverts.alphabetic _ _ closed decoded

end Inverse

-- An object with the text of another is decoded to the other's bytes, unless it
-- is split behind padding.
theorem transform_round_trip (events : List Event) (session : Session) (ran : Runs.run step begun events = some session)
    (dd coded : Nat) (held : session.holds dd = true) (coded_held : session.holds coded = true)
    (sizeTMax : Fin sizeLimit) (garbage : Nat → UInt8) (encoder : Encoder) (decoder : Decoder)
    (known : encoder = base64Encoder ∧ decoder = base64Decoder ∨
      encoder = base32ToTable base32EncodeTable ∧ decoder = base32Decoder)
    (stored : transformTo sizeTMax encoder garbage session.store dd =
      some (.bytes (contents session.store coded))) :
    transformFrom decoder session.store coded = some (.bytes (contents session.store dd)) ↔
      ∀ pad ∈ (padsAfter 0 (regions session.store coded)).dropLast, decoder.trim pad = 0 := by
  have valid := run_valid events session ran
  rcases known with ⟨rfl, rfl⟩ | ⟨rfl, rfl⟩
  · exact round_trip_held _ _ _ base64_inverts session valid dd coded held coded_held sizeTMax garbage stored
  · exact round_trip_held _ _ _ base32_inverts session valid dd coded held coded_held sizeTMax garbage stored

-- The byte M, and its text in two regions.
def written : List Event :=
  [.create (some [77]) .default, .create (some [84, 81]) .default, .create (some [61, 61]) .default, .concat 2 3]

def writtenSession : Session := (Runs.run step begun written).getD begun

theorem transform_round_trip_written :
    transformFrom base64Decoder writtenSession.store 4 = some (.bytes (contents writtenSession.store 1)) := by
  have ran : Runs.run step begun written = some writtenSession := by decide
  exact (transform_round_trip written writtenSession ran 1 4 (by decide) (by decide) ⟨0x7fffffff, by decide⟩
    (fun _ => 0) base64Encoder base64Decoder (Or.inl ⟨rfl, rfl⟩) (by decide +kernel)).mpr (by decide +kernel)

end CultivationMotain.Dispatch.DataObjects

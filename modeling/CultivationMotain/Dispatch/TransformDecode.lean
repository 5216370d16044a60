import CultivationMotain.Dispatch.Transform

set_option autoImplicit false

namespace CultivationMotain.Dispatch.DataObjects

open ReferenceCounts

-- The decoders whose tables hold their whole alphabets.
structure Alphabetic (decoder : Decoder) : Prop where
  padding : ∀ index < 256, decoder.table.getD index (-1) = -2 ↔ index = equalsSign.toNat
  unpacked : ∀ x, (decoder.unpack x).length = (decoder.unpack 0).length
  some_bytes : 0 < (decoder.unpack 0).length
  plain : decoder.trim 0 = 0

theorem base64_alphabetic : Alphabetic base64Decoder where
  padding := by decide +kernel
  unpacked := fun _ => rfl
  some_bytes := by decide
  plain := rfl

theorem base32_alphabetic : Alphabetic base32Decoder where
  padding := by decide +kernel
  unpacked := fun _ => rfl
  some_bytes := by decide
  plain := rfl

-- How many padding characters there are up to the end of each region.
def padsAfter (pad : Nat) : List (Nat × List UInt8) → List Nat
  | [] => []
  | (_, bytes) :: rest =>
      (pad + bytes.count equalsSign) :: padsAfter (pad + bytes.count equalsSign) rest

def behind (front : List UInt8) (state : Decoding) : Decoding := { state with written := front ++ state.written }

theorem decode_behind (decoder : Decoder) (front : List UInt8) (state : Decoding) (bytes : List UInt8) :
    bytes.foldlM (decodeByte decoder) (behind front state) =
      (bytes.foldlM (decodeByte decoder) state).map (behind front) := by
  induction bytes generalizing state with
  | nil => rfl
  | cons byte rest ih =>
      have here : decodeByte decoder (behind front state) byte =
          (decodeByte decoder state byte).map (behind front) := by
        rw [decodeByte, decodeByte]
        by_cases blank : visible byte = false
        · rw [if_pos blank, if_pos blank, Option.map_some]
        · rw [if_neg blank, if_neg blank]
          dsimp only
          by_cases unknown : decoder.tableSize ≤ byte.toNat ∨ decoder.table.getD byte.toNat (-1) = -1
          · rw [if_pos unknown, if_pos unknown, Option.map_none]
          · rw [if_neg unknown, if_neg unknown, Option.map_some, behind, behind]
            by_cases full : (state.count + 1) % decoder.group = 0
            · simp only [full, if_true, List.append_assoc]
            · simp only [full, if_false]
      rw [List.foldlM_cons, List.foldlM_cons, here]
      cases decodeByte decoder state byte with
      | none => rfl
      | some next => exact ih next

section Pads

variable (decoder : Decoder) (alphabetic : Alphabetic decoder)

include alphabetic

theorem padding_byte (byte : UInt8) : decoder.table.getD byte.toNat (-1) = -2 ↔ byte = equalsSign :=
  (alphabetic.padding byte.toNat byte.toNat_lt).trans UInt8.toNat_inj

-- What a known character does to the counts.
theorem decode_counts (state next : Decoding) (byte : UInt8) (decoded : decodeByte decoder state byte = some next) :
    next.pad = state.pad + [byte].count equalsSign ∧ next.count = state.count + [byte].countP visible := by
  rw [decodeByte] at decoded
  by_cases blank : visible byte = false
  · have other : ¬byte = equalsSign := by
      rintro rfl
      exact absurd blank (by decide)
    rw [if_pos blank] at decoded
    cases Option.some.inj decoded
    rw [List.count_singleton, List.countP_singleton, blank]
    simp [other]
  · rw [if_neg blank] at decoded
    dsimp only at decoded
    by_cases unknown : decoder.tableSize ≤ byte.toNat ∨ decoder.table.getD byte.toNat (-1) = -1
    · rw [if_pos unknown] at decoded
      cases decoded
    · rw [if_neg unknown] at decoded
      cases Option.some.inj decoded
      rw [List.count_singleton, List.countP_singleton, Bool.eq_true_of_not_eq_false blank]
      by_cases pads : decoder.table.getD byte.toNat (-1) = -2
      · refine ⟨(if_pos pads).trans ?_, rfl⟩
        rw [(padding_byte decoder alphabetic byte).mp pads]
        rfl
      · have other : ¬(byte == equalsSign) = true := fun same =>
          pads ((padding_byte decoder alphabetic byte).mpr (beq_iff_eq.mp same))
        rw [if_neg other]
        exact ⟨if_neg pads, rfl⟩

theorem decode_text_counts (state final : Decoding) (bytes : List UInt8)
    (decoded : bytes.foldlM (decodeByte decoder) state = some final) :
    final.pad = state.pad + bytes.count equalsSign ∧ final.count = state.count + bytes.countP visible := by
  induction bytes generalizing state with
  | nil =>
      cases Option.some.inj decoded
      exact ⟨rfl, rfl⟩
  | cons byte rest ih =>
      obtain ⟨next, here, later⟩ := Option.bind_eq_some_iff.mp decoded
      obtain ⟨pad, count⟩ := decode_counts decoder alphabetic state next byte here
      obtain ⟨pads, counts⟩ := ih next later
      rw [pads, counts, pad, count, Nat.add_assoc, Nat.add_assoc, ← List.count_append, ← List.countP_append]
      exact ⟨rfl, rfl⟩

omit alphabetic in
theorem decode_completes (state next : Decoding) (byte : UInt8) (decoded : decodeByte decoder state byte = some next)
    (seen : visible byte = true) (full : next.count % decoder.group = 0) :
    ∃ x, next.written = state.written ++ decoder.unpack x := by
  rw [decodeByte, if_neg (by rw [seen]; exact Bool.true_eq_false.mp)] at decoded
  dsimp only at decoded
  by_cases unknown : decoder.tableSize ≤ byte.toNat ∨ decoder.table.getD byte.toNat (-1) = -1
  · rw [if_pos unknown] at decoded
    cases decoded
  · rw [if_neg unknown] at decoded
    cases Option.some.inj decoded
    exact ⟨_, if_pos full⟩

omit alphabetic in
theorem decode_split (first second : List UInt8) (state final : Decoding)
    (decoded : (first ++ second).foldlM (decodeByte decoder) state = some final) :
    ∃ middle rest, first.foldlM (decodeByte decoder) state = some middle ∧
      second.foldlM (decodeByte decoder) (cleared middle) = some rest ∧ final = behind middle.written rest := by
  rw [List.foldlM_append] at decoded
  obtain ⟨middle, here, later⟩ := Option.bind_eq_some_iff.mp decoded
  have whole : middle = behind middle.written (cleared middle) := by
    rw [behind, cleared, List.append_nil]
  rw [whole, decode_behind] at later
  obtain ⟨rest, ran, rfl⟩ := Option.map_eq_some_iff.mp later
  exact ⟨middle, rest, here, ran, rfl⟩

omit alphabetic in
theorem decode_region_enough (state : Decoded) (region : Region) (next : Decoding)
    (clear : cleared state.state = state.state)
    (decoded : region.bytes.foldlM (decodeByte decoder) state.state = some next)
    (enough : decoder.trim next.pad ≤ next.written.length) :
    decodeRegion decoder state region =
      ({ state with
        state := cleared next
        rv := state.rv ++ next.written.take (next.written.length - decoder.trim next.pad) }, true) := by
  rw [decodeRegion, clear, decoded]
  exact if_pos enough

omit alphabetic in
theorem decode_region_overrun (state : Decoded) (region : Region) (next : Decoding)
    (clear : cleared state.state = state.state)
    (decoded : region.bytes.foldlM (decodeByte decoder) state.state = some next)
    (short : ¬decoder.trim next.pad ≤ next.written.length) :
    decodeRegion decoder state region = ({ state with state := cleared next, overrun := true }, true) := by
  rw [decodeRegion, clear, decoded]
  exact if_neg short

-- Each region's padding takes bytes off, and nothing puts them back.
theorem decode_lengths (parts : List (Nat × List UInt8)) (state : Decoded) (offset : Nat) (final : Decoding)
    (clear : cleared state.state = state.state)
    (decoded : (parts.flatMap Prod.snd).foldlM (decodeByte decoder) state.state = some final) :
    (visit (decodeRegion decoder) state offset parts).2 = true ∧
      ((visit (decodeRegion decoder) state offset parts).1.overrun = false →
        state.overrun = false ∧
        (visit (decodeRegion decoder) state offset parts).1.rv.length +
          ((padsAfter state.state.pad parts).map decoder.trim).sum = state.rv.length + final.written.length) := by
  induction parts generalizing state offset final with
  | nil =>
      cases Option.some.inj decoded
      have nothing : state.state.written = [] := (congrArg Decoding.written clear).symm
      refine ⟨rfl, fun fine => ⟨fine, ?_⟩⟩
      rw [nothing]
      rfl
  | cons part rest ih =>
      obtain ⟨object, bytes⟩ := part
      obtain ⟨middle, later, here, ran, rfl⟩ := decode_split decoder bytes _ state.state final decoded
      have pads := (decode_text_counts decoder alphabetic state.state middle bytes here).1
      rw [visit, padsAfter, ← pads, List.map_cons, List.sum_cons]
      by_cases enough : decoder.trim middle.pad ≤ middle.written.length
      · rw [decode_region_enough decoder state ⟨object, offset, bytes⟩ middle clear here enough, if_pos rfl]
        obtain ⟨fine, lengths⟩ := ih { state with
          state := cleared middle
          rv := state.rv ++ middle.written.take (middle.written.length - decoder.trim middle.pad) }
          (offset + bytes.length) later rfl ran
        refine ⟨fine, fun safe => ⟨(lengths safe).1, ?_⟩⟩
        have total := (lengths safe).2
        rw [List.length_append, List.length_take, Nat.min_eq_left (Nat.sub_le _ _)] at total
        have same : (cleared middle).pad = middle.pad := rfl
        rw [same] at total
        dsimp only [behind]
        rw [List.length_append]
        omega
      · rw [decode_region_overrun decoder state ⟨object, offset, bytes⟩ middle clear here enough, if_pos rfl]
        obtain ⟨fine, lengths⟩ := ih { state with state := cleared middle, overrun := true } (offset + bytes.length)
          later rfl ran
        exact ⟨fine, fun safe => absurd (lengths safe).1 Bool.true_eq_false.mp⟩

-- As long as the padding takes nothing off, the regions are as one.
theorem decode_plain (before rest : List (Nat × List UInt8)) (state : Decoded) (offset : Nat) (middle : Decoding)
    (clear : cleared state.state = state.state)
    (decoded : (before.flatMap Prod.snd).foldlM (decodeByte decoder) state.state = some middle)
    (plain : ∀ pad ∈ padsAfter state.state.pad before, decoder.trim pad = 0) :
    visit (decodeRegion decoder) state offset (before ++ rest) =
      visit (decodeRegion decoder) { state with state := cleared middle, rv := state.rv ++ middle.written }
        (offset + (before.flatMap Prod.snd).length) rest := by
  induction before generalizing state offset middle with
  | nil =>
      cases Option.some.inj decoded
      have nothing : state.state.written = [] := (congrArg Decoding.written clear).symm
      rw [clear, nothing, List.append_nil]
      rfl
  | cons part later ih =>
      obtain ⟨object, bytes⟩ := part
      obtain ⟨first, second, here, ran, rfl⟩ := decode_split decoder bytes _ state.state middle decoded
      have pads := (decode_text_counts decoder alphabetic state.state first bytes here).1
      rw [padsAfter, ← pads] at plain
      have nothing := plain first.pad List.mem_cons_self
      have whole : decoder.trim first.pad ≤ first.written.length := nothing ▸ Nat.zero_le _
      rw [List.cons_append, visit, decode_region_enough decoder state ⟨object, offset, bytes⟩ first clear here whole,
        if_pos rfl]
      dsimp only
      rw [ih { state with
        state := cleared first
        rv := state.rv ++ first.written.take (first.written.length - decoder.trim first.pad) } (offset + bytes.length)
          second rfl ran fun pad member => plain pad (List.mem_cons_of_mem _ member),
        nothing, Nat.sub_zero, List.take_length, List.flatMap_cons, List.length_append, Nat.add_assoc,
        List.append_assoc]
      rfl

end Pads

-- A text of whole groups, with less padding than a group.
structure Closed (decoder : Decoder) (text : List UInt8) : Prop where
  groups : text.countP visible % decoder.group = 0
  padding : decoder.trim (text.count equalsSign) ≤ (decoder.unpack 0).length

-- What a text that lies in one piece of memory is decoded to.
def decodeWhole (decoder : Decoder) (text : List UInt8) : Option (List UInt8) :=
  (text.foldlM (decodeByte decoder) decodingStart.state).map fun final =>
    final.written.take (final.written.length - decoder.trim final.pad)

theorem pads_after_append (before after : List (Nat × List UInt8)) (pad : Nat) :
    padsAfter pad (before ++ after) =
      padsAfter pad before ++ padsAfter (pad + (before.flatMap Prod.snd).count equalsSign) after := by
  induction before generalizing pad with
  | nil => rfl
  | cons part rest ih =>
      obtain ⟨object, bytes⟩ := part
      rw [List.cons_append, padsAfter, padsAfter, ih, List.flatMap_cons, List.count_append, Nat.add_assoc,
        List.cons_append]

theorem pads_after_whole (parts : List (Nat × List UInt8)) (some_parts : parts ≠ []) :
    (parts.flatMap Prod.snd).count equalsSign ∈ padsAfter 0 parts := by
  obtain ⟨before, ⟨object, bytes⟩, rfl⟩ : ∃ before part, parts = before ++ [part] :=
    ⟨_, _, (List.dropLast_concat_getLast some_parts).symm⟩
  rw [pads_after_append, Nat.zero_add, padsAfter, padsAfter, List.flatMap_append, List.flatMap_singleton,
    List.count_append]
  exact List.mem_append_right _ List.mem_cons_self

theorem last_visible (bytes : List UInt8) (seen : bytes.countP visible ≠ 0) :
    ∃ front byte blanks, bytes = front ++ byte :: blanks ∧ visible byte = true ∧ blanks.countP visible = 0 := by
  induction bytes with
  | nil => exact absurd rfl seen
  | cons byte rest ih =>
      by_cases blank : rest.countP visible = 0
      · refine ⟨[], byte, rest, rfl, ?_, blank⟩
        by_contra hidden
        exact seen ((List.countP_cons_of_neg hidden).trans blank)
      · obtain ⟨front, last, blanks, rfl, shown, none_left⟩ := ih blank
        exact ⟨byte :: front, last, blanks, rfl, shown, none_left⟩

section Closed

variable (decoder : Decoder) (alphabetic : Alphabetic decoder)

theorem decode_blanks (bytes : List UInt8) (state : Decoding) (blank : bytes.countP visible = 0) :
    bytes.foldlM (decodeByte decoder) state = some state := by
  induction bytes with
  | nil => rfl
  | cons byte rest ih =>
      rw [List.countP_eq_zero] at blank
      have hidden : visible byte = false := Bool.eq_false_of_not_eq_true (blank byte List.mem_cons_self)
      rw [List.foldlM_cons, decodeByte, if_pos hidden]
      exact ih (List.countP_eq_zero.mpr fun other member => blank other (List.mem_cons_of_mem byte member))

include alphabetic

-- A last region with a character completes a group, so that it has bytes for
-- the padding.
theorem closed_written (text first last : List UInt8) (state middle final : Decoding) (closed : Closed decoder text)
    (split : text = first ++ last) (seen : last.countP visible ≠ 0)
    (here : first.foldlM (decodeByte decoder) decodingStart.state = some middle)
    (counts : state.count = middle.count) (decoded : last.foldlM (decodeByte decoder) state = some final) :
    decoder.trim (text.count equalsSign) ≤ final.written.length := by
  have total := (decode_text_counts decoder alphabetic _ middle first here).2
  have counted := (decode_text_counts decoder alphabetic state final _ decoded).2
  have full : final.count % decoder.group = 0 := by
    have groups := closed.groups
    rw [split, List.countP_append] at groups
    rw [counted, counts, total, show decodingStart.state.count = 0 from rfl, Nat.zero_add]
    exact groups
  obtain ⟨front, byte, blanks, rfl, shown, blank⟩ := last_visible last seen
  rw [List.foldlM_append] at decoded
  obtain ⟨before, -, step⟩ := Option.bind_eq_some_iff.mp decoded
  rw [List.foldlM_cons] at step
  obtain ⟨next, taken, ended⟩ := Option.bind_eq_some_iff.mp step
  obtain rfl := Option.some.inj ((decode_blanks decoder blanks next blank).symm.trans ended)
  obtain ⟨x, written⟩ := decode_completes decoder before next byte taken shown full
  rw [written, List.length_append, alphabetic.unpacked]
  exact closed.padding.trans (Nat.le_add_left _ _)

theorem decode_split_iff (parts : List (Nat × List UInt8)) (rv : List UInt8)
    (closed : Closed decoder (parts.flatMap Prod.snd))
    (whole : decodeWhole decoder (parts.flatMap Prod.snd) = some rv) :
    decodeResult (visit (decodeRegion decoder) decodingStart 0 parts) = .bytes rv ↔
      ∀ pad ∈ (padsAfter 0 parts).dropLast, decoder.trim pad = 0 := by
  obtain ⟨final, decoded, rfl⟩ := Option.map_eq_some_iff.mp whole
  by_cases some_parts : parts = []
  · rw [some_parts] at decoded ⊢
    cases Option.some.inj decoded
    exact iff_of_true (congrArg Result.bytes List.take_nil.symm) nofun
  obtain ⟨before, ⟨object, bytes⟩, rfl⟩ : ∃ before part, parts = before ++ [part] :=
    ⟨_, _, (List.dropLast_concat_getLast some_parts).symm⟩
  have pads := (decode_text_counts decoder alphabetic _ final _ decoded).1
  rw [show decodingStart.state.pad = 0 from rfl, Nat.zero_add] at pads
  have split : (before ++ [(object, bytes)]).flatMap Prod.snd = before.flatMap Prod.snd ++ bytes := by
    rw [List.flatMap_append, List.flatMap_singleton]
  rw [split] at decoded
  obtain ⟨middle, rest, here, ran, rfl⟩ := decode_split decoder _ bytes _ final decoded
  have same_pad : (behind middle.written rest).pad = rest.pad := rfl
  have start_pad : decodingStart.state.pad = 0 := rfl
  have last_pad : 0 + (before.flatMap Prod.snd).count equalsSign + bytes.count equalsSign = rest.pad := by
    rw [Nat.zero_add, ← List.count_append, ← split, ← pads, same_pad]
  rw [pads_after_append, padsAfter, padsAfter, List.dropLast_concat]
  constructor
  · intro answered
    have lengths := decode_lengths decoder alphabetic (before ++ [(object, bytes)]) decodingStart 0
      (behind middle.written rest) rfl (split ▸ decoded)
    rw [decodeResult, if_neg (by rw [lengths.1]; exact Bool.true_eq_false.mp)] at answered
    cases safe : (visit (decodeRegion decoder) decodingStart 0 (before ++ [(object, bytes)])).1.overrun with
    | true =>
        rw [safe, if_pos rfl] at answered
        cases answered
    | false =>
        rw [safe, if_neg Bool.false_ne_true] at answered
        have total := (lengths.2 safe).2
        rw [Result.bytes.inj answered, start_pad, pads_after_append, padsAfter, padsAfter, last_pad, List.map_append,
          List.sum_append, List.map_singleton, List.sum_singleton, List.length_take, same_pad,
          show decodingStart.rv.length = 0 from rfl] at total
        have nothing : ((padsAfter 0 before).map decoder.trim).sum = 0 := by omega
        intro pad member
        exact List.sum_eq_zero_iff.mp nothing _ (List.mem_map_of_mem member)
  · intro plain
    have written : decoder.trim rest.pad ≤ rest.written.length := by
      by_cases blank : bytes.countP visible = 0
      · obtain rfl := Option.some.inj ((decode_blanks decoder bytes (cleared middle) blank).symm.trans ran)
        have padding := (decode_text_counts decoder alphabetic _ middle _ here).1
        rw [start_pad, Nat.zero_add] at padding
        have untrimmed : decoder.trim middle.pad = 0 := by
          by_cases first : before = []
          · rw [padding, first]
            exact alphabetic.plain
          · rw [padding]
            exact plain _ (pads_after_whole before first)
        exact untrimmed.le.trans (Nat.zero_le _)
      · have enough := closed_written decoder alphabetic _ _ bytes (cleared middle) middle rest closed split blank here
          rfl ran
        rwa [← pads, same_pad] at enough
    rw [decode_plain decoder alphabetic before _ decodingStart 0 middle rfl here plain, visit,
      decode_region_enough decoder _ ⟨object, _, bytes⟩ rest rfl ran written, if_pos rfl, visit]
    have kept : (behind middle.written rest).written.take
        ((behind middle.written rest).written.length - decoder.trim (behind middle.written rest).pad) =
        middle.written ++ rest.written.take (rest.written.length - decoder.trim rest.pad) := by
      rw [same_pad, behind, List.length_append, Nat.add_sub_assoc written, List.take_length_add_append]
    rw [kept]
    rfl

end Closed

-- The text TQ==, with its padding in a region of its own and in two regions.
def padded : List Event := [.create (some [84, 81]) .default, .create (some [61, 61]) .default, .concat 1 2]

def paddedSession : Session := (Runs.run step begun padded).getD begun

def parted : List Event := [.create (some [84, 81, 61]) .default, .create (some [61]) .default, .concat 1 2]

def partedSession : Session := (Runs.run step begun parted).getD begun

-- The characters that the table's size lets in are all unknown.
theorem base32hex_byte (state : Decoding) (byte : UInt8) (seen : visible byte = true) :
    decodeByte base32hexDecoder state byte = none := by
  have small : ∀ index < 33, base32hexDecoder.table.getD index (-1) = -1 := by decide +kernel
  rw [decodeByte, if_neg (by rw [seen]; exact Bool.true_eq_false.mp)]
  refine if_pos ?_
  by_cases large : base32hexDecoder.tableSize ≤ byte.toNat
  · exact Or.inl large
  · exact Or.inr (small byte.toNat (Nat.lt_of_not_le large))

theorem base32hex_bytes (state : Decoding) (bytes : List UInt8) :
    bytes.foldlM (decodeByte base32hexDecoder) state = if bytes.any visible then none else some state := by
  induction bytes with
  | nil => rfl
  | cons byte rest ih =>
      rw [List.foldlM_cons, List.any_cons]
      by_cases seen : visible byte = true
      · rw [base32hex_byte state byte seen, seen]
        rfl
      · have blank : visible byte = false := Bool.eq_false_of_not_eq_true seen
        rw [decodeByte, if_pos blank, blank, Bool.false_or]
        exact ih

theorem base32hex_visit (parts : List (Nat × List UInt8)) (offset : Nat) :
    decodeResult (visit (decodeRegion base32hexDecoder) decodingStart offset parts) =
      if (parts.flatMap Prod.snd).any visible then .null else .bytes [] := by
  induction parts generalizing offset with
  | nil => rfl
  | cons part rest ih =>
      obtain ⟨object, bytes⟩ := part
      have decoded := base32hex_bytes decodingStart.state bytes
      rw [visit, List.flatMap_cons, List.any_append]
      cases seen : bytes.any visible with
      | true =>
          rw [seen, if_pos rfl] at decoded
          have stopped : decodeRegion base32hexDecoder decodingStart ⟨object, offset, bytes⟩ =
              (decodingStart, false) := by
            rw [decodeRegion, show cleared decodingStart.state = decodingStart.state from rfl, decoded]
          rw [stopped, if_neg Bool.false_ne_true, Bool.true_or, if_pos rfl]
          rfl
      | false =>
          rw [seen, if_neg Bool.false_ne_true] at decoded
          have went_on : decodeRegion base32hexDecoder decodingStart ⟨object, offset, bytes⟩ = (decodingStart, true) :=
            decode_region_enough base32hexDecoder decodingStart ⟨object, offset, bytes⟩ _ rfl decoded (Nat.zero_le _)
          rw [went_on, if_pos rfl, Bool.false_or]
          exact ih (offset + bytes.length)

-- The wrong size of the table: a text has to be blank to be decoded at all.
theorem base32hex_rejects (events : List Event) (session : Session) (ran : Runs.run step begun events = some session)
    (dd : Nat) (held : session.holds dd = true) :
    transformFrom base32hexDecoder session.store dd =
      some (if (contents session.store dd).any visible then .null else .bytes []) := by
  have valid := run_valid events session ran
  rw [transformFrom, held_apply (decodeRegion base32hexDecoder) session valid dd held, Option.map_some, base32hex_visit,
    (held_regions session valid dd held).1]

theorem base32hex_rejects_padded : transformFrom base32hexDecoder paddedSession.store 3 = some .null :=
  base32hex_rejects padded paddedSession (by decide) 3 (by decide)

end CultivationMotain.Dispatch.DataObjects

import CultivationMotain.Library.Runs
import CultivationMotain.SocketGame.Packet

set_option autoImplicit false

namespace CultivationMotain.SocketGame.TermReads

-- The pointers are offsets into the memory.
structure PreBuffer where
  memory : Bytes
  readPointer : Nat
  writePointer : Nat
deriving DecidableEq, Repr

def PreBuffer.availableBytes (pre : PreBuffer) : Nat := pre.writePointer - pre.readPointer

def PreBuffer.availableSpace (pre : PreBuffer) : Nat := pre.memory.length - pre.writePointer

-- The bytes from readBuffer on.
def PreBuffer.readBuffer (pre : PreBuffer) : Bytes := (pre.memory.take pre.writePointer).drop pre.readPointer

-- realloc leaves what is there; the new bytes are garbage.
def ensureCapacityForWrite (garbage : Nat → UInt8) (pre : PreBuffer) (numBytes : Nat) : PreBuffer :=
  if pre.availableSpace < numBytes then
    { pre with memory := pre.memory ++ (List.range (numBytes - pre.availableSpace)).map garbage }
  else pre

-- The bytes are copied to writeBuffer, and didWrite: is told.
def didWrite (pre : PreBuffer) (bytes : Bytes) : PreBuffer where
  memory := pre.memory.take pre.writePointer ++ bytes ++ pre.memory.drop (pre.writePointer + bytes.length)
  readPointer := pre.readPointer
  writePointer := pre.writePointer + bytes.length

def didRead (pre : PreBuffer) (bytesRead : Nat) : PreBuffer :=
  if pre.readPointer + bytesRead = pre.writePointer then { pre with readPointer := 0, writePointer := 0 }
  else { pre with readPointer := pre.readPointer + bytesRead }

def PreBuffer.Fits (pre : PreBuffer) : Prop :=
  pre.readPointer ≤ pre.writePointer ∧ pre.writePointer ≤ pre.memory.length

theorem read_buffer_length (pre : PreBuffer) (fits : pre.Fits) : pre.readBuffer.length = pre.availableBytes := by
  rw [PreBuffer.readBuffer, List.length_drop, List.length_take, Nat.min_eq_left fits.2, PreBuffer.availableBytes]

theorem ensure_capacity_fits (garbage : Nat → UInt8) (pre : PreBuffer) (numBytes : Nat) (fits : pre.Fits) :
    (ensureCapacityForWrite garbage pre numBytes).Fits := by
  rw [ensureCapacityForWrite]
  by_cases grows : pre.availableSpace < numBytes
  · rw [if_pos grows]
    refine ⟨fits.1, ?_⟩
    rw [List.length_append]
    exact Nat.le_add_right_of_le fits.2
  · rw [if_neg grows]
    exact fits

theorem ensure_capacity_read_buffer (garbage : Nat → UInt8) (pre : PreBuffer) (numBytes : Nat) (fits : pre.Fits) :
    (ensureCapacityForWrite garbage pre numBytes).readBuffer = pre.readBuffer := by
  rw [ensureCapacityForWrite]
  by_cases grows : pre.availableSpace < numBytes
  · rw [if_pos grows, PreBuffer.readBuffer, PreBuffer.readBuffer, List.take_append_of_le_length fits.2]
  · rw [if_neg grows]

theorem did_write_fits (pre : PreBuffer) (bytes : Bytes) (fits : pre.Fits) : (didWrite pre bytes).Fits := by
  obtain ⟨ordered, inside⟩ := fits
  refine ⟨Nat.le_add_right_of_le ordered, ?_⟩
  rw [didWrite]
  simp only [List.length_append, List.length_take, List.length_drop]
  omega

theorem did_write_read_buffer (pre : PreBuffer) (bytes : Bytes) (fits : pre.Fits) :
    (didWrite pre bytes).readBuffer = pre.readBuffer ++ bytes := by
  have length : (pre.memory.take pre.writePointer ++ bytes).length = pre.writePointer + bytes.length := by
    rw [List.length_append, List.length_take, Nat.min_eq_left fits.2]
  rw [PreBuffer.readBuffer, didWrite]
  dsimp only
  rw [← length, List.take_left', List.drop_append_of_le_length, PreBuffer.readBuffer]
  · rw [List.length_take, Nat.min_eq_left fits.2]
    exact fits.1
  · rfl

theorem did_read_fits (pre : PreBuffer) (bytesRead : Nat) (fits : pre.Fits) (some : bytesRead ≤ pre.availableBytes) :
    (didRead pre bytesRead).Fits := by
  obtain ⟨ordered, inside⟩ := fits
  rw [PreBuffer.availableBytes] at some
  rw [didRead]
  by_cases whole : pre.readPointer + bytesRead = pre.writePointer
  · rw [if_pos whole]
    exact ⟨Nat.le_refl 0, Nat.zero_le _⟩
  · rw [if_neg whole]
    refine ⟨?_, inside⟩
    dsimp only
    omega

theorem did_read_read_buffer (pre : PreBuffer) (bytesRead : Nat) :
    (didRead pre bytesRead).readBuffer = pre.readBuffer.drop bytesRead := by
  rw [didRead]
  by_cases whole : pre.readPointer + bytesRead = pre.writePointer
  · rw [if_pos whole, PreBuffer.readBuffer, PreBuffer.readBuffer, List.drop_drop, List.take_zero, List.drop_nil,
      List.drop_of_length_le]
    rw [whole, List.length_take]
    exact Nat.min_le_left _ _
  · rw [if_neg whole, PreBuffer.readBuffer, PreBuffer.readBuffer, List.drop_drop]

-- bytes are the bytesDone bytes of the packet, capacity what its buffer has room
-- for behind the start offset.
structure ReadPacket where
  bytes : Bytes
  capacity : Nat
  maxLength : Nat
  term : Bytes
deriving DecidableEq, Repr

def ensureCapacityForAdditionalData (packet : ReadPacket) (length : Nat) : ReadPacket :=
  if packet.capacity - packet.bytes.length < length then { packet with capacity := packet.bytes.length + length }
  else packet

def readLengthForTermWithHint (packet : ReadPacket) (bytesAvailable : Nat) : Nat × Bool :=
  let result :=
    if 0 < packet.maxLength then min bytesAvailable (packet.maxLength - packet.bytes.length) else bytesAvailable
  (result, decide (packet.capacity - packet.bytes.length < result))

-- The loop of readLengthForTermWithPreBuffer: the packet's last bytes, how many
-- of the prebuffer's go behind them, and where the comparison starts.
def termLoop (term pre : Bytes) (maxLength : Nat) : Nat → Bytes → Nat → Nat → Nat × Bool
  | 0, _, _, _ => (maxLength, false)
  | count + 1, [], preLen, offset =>
      if (pre.drop offset).take term.length = term then (offset + term.length, true)
      else termLoop term pre maxLength count [] preLen (offset + 1)
  | count + 1, byte :: buf, preLen, offset =>
      if (byte :: buf) ++ pre.take preLen = term then (preLen, true)
      else termLoop term pre maxLength count buf (preLen + 1) offset

def readLengthForTermWithPreBuffer (packet : ReadPacket) (pre : Bytes) : Nat × Bool :=
  let bytesDone := packet.bytes.length
  let termLength := packet.term.length
  if bytesDone + pre.length < termLength then (pre.length, false)
  else
    let maxPreBufferLength := if 0 < packet.maxLength then min pre.length (packet.maxLength - bytesDone) else pre.length
    let bufLen := min bytesDone (termLength - 1)
    termLoop packet.term pre maxPreBufferLength (bufLen + maxPreBufferLength + 1 - termLength)
      (packet.bytes.drop (bytesDone - bufLen)) (termLength - bufLen) 0

-- The bytes behind the terminator.
def searchLoop (term buff : Bytes) : Nat → Nat → Option Nat
  | 0, _ => none
  | fuel + 1, i =>
      if i + term.length ≤ buff.length then
        if (buff.drop i).take term.length = term then some (buff.length - (i + term.length))
        else searchLoop term buff fuel (i + 1)
      else none

def searchForTermAfterPreBuffering (packet : ReadPacket) (bytes : Bytes) : Option Nat :=
  let start :=
    if packet.term.length ≤ packet.bytes.length then packet.bytes.length - packet.term.length + 1 else 0
  searchLoop packet.term (packet.bytes ++ bytes) (packet.bytes.length + bytes.length + 1) start

-- The terminator stands before the place.
def Ends (term data : Bytes) (place : Nat) : Prop :=
  term.length ≤ place ∧ place ≤ data.length ∧ (data.drop (place - term.length)).take term.length = term

theorem ends_append (term data more : Bytes) (place : Nat) (inside : place ≤ data.length) :
    Ends term (data ++ more) place ↔ Ends term data place := by
  constructor
  · rintro ⟨room, -, same⟩
    refine ⟨room, inside, ?_⟩
    rwa [List.drop_append_of_le_length (by omega), List.take_append_of_le_length (by rw [List.length_drop]; omega)]
      at same
  · rintro ⟨room, -, same⟩
    refine ⟨room, by rw [List.length_append]; omega, ?_⟩
    rw [List.drop_append_of_le_length (by omega), List.take_append_of_le_length (by rw [List.length_drop]; omega)]
    exact same

theorem ends_of_window (term data : Bytes) (start : Nat) (same : (data.drop start).take term.length = term)
    (inside : start + term.length ≤ data.length) : Ends term data (start + term.length) := by
  refine ⟨Nat.le_add_left _ _, inside, ?_⟩
  rw [Nat.add_sub_cancel]
  exact same

-- A comparison that fails moves the start of the search on.
theorem ends_later (term data : Bytes) (start : Nat) (differs : ¬(data.drop start).take term.length = term)
    (before : ∀ place, Ends term data place → start + term.length ≤ place) (place : Nat)
    (ends : Ends term data place) : start + 1 + term.length ≤ place := by
  have later := before place ends
  by_contra here
  have equal : place - term.length = start := by omega
  have matched := ends.2.2
  rw [equal] at matched
  exact differs matched

-- What a search for the terminator is to answer: the length up to the first one,
-- or the whole length where there is none.
structure Scanned (term data more : Bytes) (answer : Nat × Bool) : Prop where
  found : answer.2 = true → answer.1 ≤ more.length ∧ Ends term (data ++ more) (data.length + answer.1) ∧
    ∀ place, Ends term (data ++ more) place → data.length + answer.1 ≤ place
  absent : answer.2 = false → answer.1 = more.length ∧ ∀ place, ¬Ends term (data ++ more) place

-- A search that has come to the end finds none.
theorem scanned_absent (term data more : Bytes) (start length : Nat) (whole : length = more.length)
    (past : data.length + more.length < start + term.length)
    (before : ∀ place, Ends term (data ++ more) place → start + term.length ≤ place) :
    Scanned term data more (length, false) := by
  refine ⟨fun absurd => Bool.noConfusion absurd, fun _ => ⟨whole, fun place ends => ?_⟩⟩
  have later := before place ends
  have inside := ends.2.1
  rw [List.length_append] at inside
  omega

-- By induction on the places that are left: none before the place where the next
-- comparison starts has a terminator.
theorem term_loop (term data pre : Bytes) (maxLength count : Nat) (buf : Bytes) (preLen offset : Nat)
    (suffix : buf = data.drop (data.length - buf.length)) (short : buf.length ≤ data.length)
    (own : buf ≠ [] → offset = 0 ∧ preLen + buf.length = term.length)
    (total : data.length - buf.length + offset + count + term.length = data.length + maxLength + 1)
    (room : maxLength ≤ pre.length)
    (before : ∀ place, Ends term (data ++ pre.take maxLength) place →
      data.length - buf.length + offset + term.length ≤ place) :
    Scanned term data (pre.take maxLength) (termLoop term pre maxLength count buf preLen offset) := by
  have taken : (pre.take maxLength).length = maxLength := by rw [List.length_take, Nat.min_eq_left room]
  induction count generalizing buf preLen offset with
  | zero =>
      rw [termLoop]
      exact scanned_absent term data _ (data.length - buf.length + offset) maxLength taken.symm (by omega) before
  | succ count ih =>
      have total_length : (data ++ pre.take maxLength).length = data.length + maxLength := by
        rw [List.length_append, taken]
      cases buf with
      | nil =>
          have window : ((data ++ pre.take maxLength).drop (data.length + offset)).take term.length =
              (pre.drop offset).take term.length := by
            rw [List.drop_length_add_append, List.drop_take, List.take_take, Nat.min_eq_left (by
              rw [List.length_nil] at total
              omega)]
          rw [termLoop]
          rw [List.length_nil, Nat.sub_zero] at total before
          by_cases same : (pre.drop offset).take term.length = term
          · rw [if_pos same]
            have ended := ends_of_window term _ (data.length + offset) (window.trans same) (by omega)
            refine ⟨fun _ => ⟨by rw [taken]; dsimp only; omega, by rw [← Nat.add_assoc]; exact ended,
              fun place ends => by rw [← Nat.add_assoc]; exact before place ends⟩,
              fun absurd => Bool.noConfusion absurd⟩
          · rw [if_neg same]
            refine ih [] preLen (offset + 1) (by rw [List.length_nil, Nat.sub_zero, List.drop_length])
              (Nat.zero_le _) (fun some => (some rfl).elim) (by rw [List.length_nil]; omega) fun place ends => ?_
            have later := ends_later term _ (data.length + offset) (by rw [window]; exact same) before place ends
            rw [List.length_nil]
            omega
      | cons byte rest =>
          obtain ⟨rfl, fits⟩ := own (List.cons_ne_nil _ _)
          rw [List.length_cons] at fits short total before suffix
          have window : ((data ++ pre.take maxLength).drop (data.length - (rest.length + 1))).take term.length =
              (byte :: rest) ++ pre.take preLen := by
            have length : ((byte :: rest) : Bytes).length = rest.length + 1 := rfl
            rw [List.drop_append_of_le_length (Nat.sub_le _ _), ← suffix, List.take_append, length,
              List.take_of_length_le (by rw [length]; omega), List.take_take, Nat.min_eq_left (by omega)]
            congr 2
            omega
          rw [termLoop]
          by_cases same : (byte :: rest) ++ pre.take preLen = term
          · rw [if_pos same]
            have ended := ends_of_window term _ (data.length - (rest.length + 1)) (window.trans same) (by omega)
            have place_of : data.length - (rest.length + 1) + term.length = data.length + preLen := by omega
            rw [place_of] at ended
            refine ⟨fun _ => ⟨by rw [taken]; dsimp only; omega, ended, fun place ends => ?_⟩,
              fun absurd => Bool.noConfusion absurd⟩
            have later := before place ends
            dsimp only
            omega
          · rw [if_neg same]
            refine ih rest (preLen + 1) 0 ?_ (by omega) (fun _ => ⟨rfl, by omega⟩) (by omega) fun place ends => ?_
            · have tail := congrArg List.tail suffix
              rw [List.tail_cons, List.tail_drop] at tail
              rw [tail, List.length_drop]
              congr 1
              omega
            · have later := ends_later term _ (data.length - (rest.length + 1)) (by rw [window]; exact same) before
                place ends
              omega

-- A packet that is still to be filled, as readDataToData: lets it through.
structure Waiting (packet : ReadPacket) : Prop where
  some_term : 0 < packet.term.length
  term_fits : 0 < packet.maxLength → packet.term.length ≤ packet.maxLength
  below : 0 < packet.maxLength → packet.bytes.length < packet.maxLength
  absent : ∀ place, ¬Ends packet.term packet.bytes place

-- How much of the prebuffer the packet may take.
def ReadPacket.allowance (packet : ReadPacket) (length : Nat) : Nat :=
  if 0 < packet.maxLength then min length (packet.maxLength - packet.bytes.length) else length

theorem allowance_le (packet : ReadPacket) (length : Nat) : packet.allowance length ≤ length := by
  rw [ReadPacket.allowance]
  by_cases limited : 0 < packet.maxLength
  · rw [if_pos limited]
    exact Nat.min_le_left _ _
  · rw [if_neg limited]

theorem allowance_within (packet : ReadPacket) (length : Nat) (waiting : Waiting packet)
    (limited : 0 < packet.maxLength) : packet.bytes.length + packet.allowance length ≤ packet.maxLength := by
  have below := waiting.below limited
  rw [ReadPacket.allowance, if_pos limited]
  omega

theorem allowance_whole (packet : ReadPacket) (length : Nat) (waiting : Waiting packet) :
    packet.allowance length = length ∨
      0 < packet.maxLength ∧ packet.bytes.length + packet.allowance length = packet.maxLength := by
  rw [ReadPacket.allowance]
  by_cases limited : 0 < packet.maxLength
  · have below := waiting.below limited
    rw [if_pos limited]
    omega
  · exact Or.inl (if_neg limited)

theorem ends_within (term data more : Bytes) (place : Nat) (absent : ∀ place, ¬Ends term data place)
    (ends : Ends term (data ++ more) place) : data.length < place := by
  by_contra early
  exact absent place ((ends_append term data more place (Nat.le_of_not_lt early)).mp ends)

theorem scan_pre_buffer (packet : ReadPacket) (pre : Bytes) (waiting : Waiting packet) :
    Scanned packet.term packet.bytes (pre.take (packet.allowance pre.length))
      (readLengthForTermWithPreBuffer packet pre) := by
  have room := allowance_le packet pre.length
  have some_term := waiting.some_term
  rw [readLengthForTermWithPreBuffer]
  by_cases few : packet.bytes.length + pre.length < packet.term.length
  · have whole : packet.allowance pre.length = pre.length := by
      rcases allowance_whole packet pre.length waiting with whole | ⟨limited, reached⟩
      · exact whole
      · have fits := waiting.term_fits limited
        omega
    rw [if_pos few, whole, List.take_length]
    exact scanned_absent packet.term packet.bytes pre 0 _ rfl (by omega) fun place ends => by
      rw [Nat.zero_add]
      exact ends.1
  · have enough : packet.term.length ≤ packet.bytes.length + packet.allowance pre.length := by
      rcases allowance_whole packet pre.length waiting with whole | ⟨limited, reached⟩
      · omega
      · have fits := waiting.term_fits limited
        omega
    have suffix_length : (packet.bytes.drop (packet.bytes.length -
        min packet.bytes.length (packet.term.length - 1))).length =
        min packet.bytes.length (packet.term.length - 1) := by
      rw [List.length_drop]
      omega
    rw [if_neg few]
    refine term_loop packet.term packet.bytes pre (packet.allowance pre.length) _ _ _ 0 ?_ ?_ ?_ ?_ room ?_
    · rw [suffix_length]
    · rw [suffix_length]
      exact Nat.min_le_left _ _
    · intro _
      rw [suffix_length]
      omega
    · rw [suffix_length]
      change _ + 0 + (_ + packet.allowance pre.length + 1 - _) + _ = _
      omega
    · intro place ends
      have later := ends_within _ _ _ place waiting.absent ends
      have behind := ends.1
      rw [suffix_length]
      omega

-- The answer of searchForTermAfterPreBuffering, as the length to keep.
def searched (length : Nat) : Option Nat → Nat × Bool
  | none => (length, false)
  | some overflow => (length - overflow, true)

theorem search_loop (term data more : Bytes) (fuel i : Nat)
    (enough : data.length + more.length < i + term.length + fuel)
    (past : data.length < i + term.length)
    (before : ∀ place, Ends term (data ++ more) place → i + term.length ≤ place) :
    Scanned term data more (searched more.length (searchLoop term (data ++ more) fuel i)) := by
  induction fuel generalizing i with
  | zero => exact scanned_absent term data more i _ rfl enough before
  | succ fuel ih =>
      have total : (data ++ more).length = data.length + more.length := List.length_append
      rw [searchLoop]
      by_cases fits : i + term.length ≤ (data ++ more).length
      · rw [if_pos fits]
        by_cases same : ((data ++ more).drop i).take term.length = term
        · have kept : data.length + (more.length - ((data ++ more).length - (i + term.length))) =
              i + term.length := by omega
          rw [if_pos same]
          refine ⟨fun _ => ⟨Nat.sub_le _ _, ?_, fun place ends => ?_⟩, fun absurd => Bool.noConfusion absurd⟩
          · change Ends term (data ++ more) (data.length + (more.length - _))
            rw [kept]
            exact ends_of_window term _ i same fits
          · change data.length + (more.length - _) ≤ place
            rw [kept]
            exact before place ends
        · rw [if_neg same]
          exact ih (i + 1) (by omega) (by omega) (ends_later term _ i same before)
      · rw [if_neg fits]
        exact scanned_absent term data more i _ rfl (by omega) before

-- Where the packet is shorter than the terminator, the search starts at 0, and no
-- place before it can end a terminator.
theorem scan_chunk (packet : ReadPacket) (chunk : Bytes) (waiting : Waiting packet) :
    Scanned packet.term packet.bytes chunk
      (searched chunk.length (searchForTermAfterPreBuffering packet chunk)) := by
  have some_term := waiting.some_term
  rw [searchForTermAfterPreBuffering]
  by_cases long : packet.term.length ≤ packet.bytes.length
  · rw [if_pos long]
    refine search_loop packet.term packet.bytes chunk _ _ (by omega) (by omega) fun place ends => ?_
    have later := ends_within _ _ _ place waiting.absent ends
    omega
  · rw [if_neg long]
    refine search_loop packet.term packet.bytes chunk _ 0 (by omega) (by omega) fun place ends => ?_
    have behind := ends.1
    omega

end CultivationMotain.SocketGame.TermReads

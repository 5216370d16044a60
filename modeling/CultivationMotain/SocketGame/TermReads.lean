import CultivationMotain.SocketGame.ReadPacket

set_option autoImplicit false

namespace CultivationMotain.SocketGame.TermReads

-- What one pass over the current packet comes to.
structure Reading where
  packet : ReadPacket
  preBuffer : PreBuffer
  done : Bool
deriving DecidableEq, Repr

def readFromPreBuffer (packet : ReadPacket) (pre : PreBuffer) : Reading :=
  let answer := readLengthForTermWithPreBuffer packet pre.readBuffer
  let room := ensureCapacityForAdditionalData packet answer.1
  { packet := { room with bytes := packet.bytes ++ pre.readBuffer.take answer.1 }
    preBuffer := didRead pre answer.1
    done := answer.2 }

-- chunk is what read(2) has put into the prebuffer, or behind the packet's bytes.
def readFromSocket (garbage : Nat → UInt8) (packet : ReadPacket) (pre : PreBuffer) (estimated : Nat)
    (chunk : Bytes) : Reading :=
  let hint := readLengthForTermWithHint packet estimated
  if hint.2 then readFromPreBuffer packet (didWrite (ensureCapacityForWrite garbage pre hint.1) chunk)
  else
    let room := ensureCapacityForAdditionalData packet hint.1
    match searchForTermAfterPreBuffering packet chunk with
    | none => { packet := { room with bytes := packet.bytes ++ chunk }, preBuffer := pre, done := false }
    | some 0 => { packet := { room with bytes := packet.bytes ++ chunk }, preBuffer := pre, done := true }
    | some overflow =>
        let underflow := chunk.length - overflow
        { packet := { room with bytes := packet.bytes ++ chunk.take underflow }
          preBuffer := didWrite (ensureCapacityForWrite garbage pre overflow) (chunk.drop underflow)
          done := true }

def readMaxedOut (reading : Reading) : Prop :=
  reading.done = false ∧ 0 < reading.packet.maxLength ∧ reading.packet.maxLength ≤ reading.packet.bytes.length

instance (reading : Reading) : Decidable (readMaxedOut reading) :=
  inferInstanceAs (Decidable (_ ∧ _ ∧ _))

structure AsyncSocket where
  currentRead : Option ReadPacket
  readQueue : List ReadPacket
  preBuffer : PreBuffer
  delivered : List ReadPacket
  closed : Bool
deriving DecidableEq, Repr

def connected (memory : Bytes) : AsyncSocket where
  currentRead := none
  readQueue := []
  preBuffer := ⟨memory, 0, 0⟩
  delivered := []
  closed := false

def closeWithError (socket : AsyncSocket) : AsyncSocket where
  currentRead := none
  readQueue := []
  preBuffer := ⟨socket.preBuffer.memory, 0, 0⟩
  delivered := socket.delivered
  closed := true

def finish (socket : AsyncSocket) (reading : Reading) : AsyncSocket :=
  if reading.done then
    { socket with
      currentRead := none
      preBuffer := reading.preBuffer
      delivered := socket.delivered ++ [reading.packet] }
  else if readMaxedOut reading then closeWithError socket
  else { socket with currentRead := some reading.packet, preBuffer := reading.preBuffer }

def readBuffered (packet : ReadPacket) (pre : PreBuffer) : Reading :=
  if 0 < pre.availableBytes then readFromPreBuffer packet pre else ⟨packet, pre, false⟩

-- available is the estimate and the bytes that read(2) gives, none where the
-- socket is not read.
def doReadData (garbage : Nat → UInt8) (socket : AsyncSocket) (packet : ReadPacket)
    (available : Option (Nat × Bytes)) : Option AsyncSocket :=
  let first := readBuffered packet socket.preBuffer
  match available with
  | none => some (finish socket first)
  | some (estimated, chunk) =>
      if first.done = false ∧ ¬readMaxedOut first ∧ chunk ≠ [] ∧
          chunk.length ≤ (readLengthForTermWithHint first.packet estimated).1 then
        some (finish socket (readFromSocket garbage first.packet first.preBuffer estimated chunk))
      else none

inductive Event where
  | readDataToData (data : Bytes) (maxLength capacity : Nat)
  | maybeDequeueRead (available : Option (Nat × Bytes))
  | doReadData (available : Option (Nat × Bytes))
deriving DecidableEq, Repr

def Event.available : Event → Option (Nat × Bytes)
  | .readDataToData _ _ _ => none
  | .maybeDequeueRead available => available
  | .doReadData available => available

def Event.chunk (event : Event) : Bytes :=
  match event.available with
  | none => []
  | some (_, chunk) => chunk

def received (events : List Event) : Bytes := events.flatMap Event.chunk

-- The reads that are let through, by terminator and limit.
def Event.request : Event → Option (Bytes × Nat)
  | .readDataToData data maxLength _ =>
      if data = [] ∨ (0 < maxLength ∧ maxLength < data.length) then none else some (data, maxLength)
  | .maybeDequeueRead _ => none
  | .doReadData _ => none

def requests (events : List Event) : List (Bytes × Nat) := events.filterMap Event.request

def step (garbage : Nat → UInt8) (socket : AsyncSocket) (event : Event) : Option AsyncSocket :=
  if socket.closed then none
  else
    match event with
    | .readDataToData data maxLength capacity =>
        if data = [] ∨ (0 < maxLength ∧ maxLength < data.length) then some socket
        else some { socket with readQueue := socket.readQueue ++ [⟨[], capacity, maxLength, data⟩] }
    | .maybeDequeueRead available =>
        match socket.currentRead, socket.readQueue with
        | none, packet :: rest => doReadData garbage { socket with readQueue := rest } packet available
        | _, _ => none
    | .doReadData available =>
        match socket.currentRead with
        | some packet => doReadData garbage socket packet available
        | none => none

-- A packet that has been filled: it ends with its first terminator.
structure Complete (packet : ReadPacket) : Prop where
  ends : Ends packet.term packet.bytes packet.bytes.length
  first : ∀ place, Ends packet.term packet.bytes place → place = packet.bytes.length
  within : 0 < packet.maxLength → packet.bytes.length ≤ packet.maxLength

-- The pass has moved bytes from what came in to the packet, and no further than
-- the first terminator.
structure ReadOn (packet : ReadPacket) (incoming : Bytes) (reading : Reading) : Prop where
  bytes : reading.packet.bytes ++ reading.preBuffer.readBuffer = packet.bytes ++ incoming
  request : reading.packet.term = packet.term ∧ reading.packet.maxLength = packet.maxLength
  fits : reading.preBuffer.Fits
  complete : reading.done = true → Complete reading.packet
  pending : reading.done = false → ¬readMaxedOut reading →
    Waiting reading.packet ∧ reading.preBuffer.readBuffer = []

theorem capacity_same (packet : ReadPacket) (length : Nat) :
    (ensureCapacityForAdditionalData packet length).term = packet.term ∧
      (ensureCapacityForAdditionalData packet length).maxLength = packet.maxLength := by
  rw [ensureCapacityForAdditionalData]
  by_cases small : packet.capacity - packet.bytes.length < length
  · rw [if_pos small]
    exact ⟨rfl, rfl⟩
  · rw [if_neg small]
    exact ⟨rfl, rfl⟩

-- Where the search stops before the bytes that came in do, the packet is full.
theorem scanned_read_on (packet : ReadPacket) (incoming : Bytes) (limit : Nat) (answer : Nat × Bool)
    (reading : Reading) (waiting : Waiting packet) (limited : limit = packet.allowance incoming.length)
    (scanned : Scanned packet.term packet.bytes (incoming.take limit) answer)
    (bytes : reading.packet.bytes = packet.bytes ++ incoming.take answer.1)
    (request : reading.packet.term = packet.term ∧ reading.packet.maxLength = packet.maxLength)
    (fits : reading.preBuffer.Fits) (rest : reading.preBuffer.readBuffer = incoming.drop answer.1)
    (done : reading.done = answer.2) : ReadOn packet incoming reading := by
  have room : limit ≤ incoming.length := limited ▸ allowance_le packet incoming.length
  have taken : (incoming.take limit).length = limit := by rw [List.length_take, Nat.min_eq_left room]
  have bound : answer.1 ≤ limit := by
    cases found : answer.2 with
    | true => exact taken ▸ (scanned.found found).1
    | false => exact Nat.le_of_eq (taken ▸ (scanned.absent found).1)
  have length : reading.packet.bytes.length = packet.bytes.length + answer.1 := by
    rw [bytes, List.length_append, List.length_take, Nat.min_eq_left (by omega)]
  have within : 0 < reading.packet.maxLength → reading.packet.bytes.length ≤ reading.packet.maxLength := by
    rw [request.2]
    intro some_limit
    have below := allowance_within packet incoming.length waiting some_limit
    omega
  have parts : packet.bytes ++ incoming.take limit =
      reading.packet.bytes ++ (incoming.take limit).drop answer.1 := by
    rw [bytes, List.append_assoc, ← List.take_append_drop answer.1 (incoming.take limit), List.take_take,
      Nat.min_eq_left bound, List.drop_left' (by rw [List.length_take]; omega)]
  refine ⟨by rw [bytes, rest, List.append_assoc, List.take_append_drop], request, fits, fun finished => ?_,
    fun unfinished open_ => ?_⟩
  · obtain ⟨-, ends, first⟩ := scanned.found (done ▸ finished)
    rw [parts, ← length] at ends
    refine ⟨?_, fun place placed => ?_, within⟩
    · rw [request.1]
      exact (ends_append _ _ _ _ (Nat.le_refl _)).mp ends
    · rw [request.1] at placed
      have later := first place (by rw [parts]; exact (ends_append _ _ _ _ placed.2.1).mpr placed)
      have inside := placed.2.1
      omega
  · obtain ⟨whole, absent⟩ := scanned.absent (done ▸ unfinished)
    have below : 0 < reading.packet.maxLength → reading.packet.bytes.length < reading.packet.maxLength :=
      fun some_limit => Nat.lt_of_not_le fun full => open_ ⟨unfinished, some_limit, full⟩
    have all : answer.1 = incoming.length := by
      rcases allowance_whole packet incoming.length waiting with same | ⟨some_limit, full⟩
      · omega
      · have less := below (request.2 ▸ some_limit)
        rw [request.2] at less
        omega
    refine ⟨⟨request.1 ▸ waiting.some_term, ?_, below, fun place placed => ?_⟩, ?_⟩
    · rw [request.1, request.2]
      exact waiting.term_fits
    · rw [request.1] at placed
      exact absent place (by rw [parts]; exact (ends_append _ _ _ _ placed.2.1).mpr placed)
    · rw [rest, List.drop_of_length_le (Nat.le_of_eq all.symm)]

theorem read_from_pre_buffer (packet : ReadPacket) (pre : PreBuffer) (waiting : Waiting packet) (fits : pre.Fits) :
    ReadOn packet pre.readBuffer (readFromPreBuffer packet pre) := by
  have scanned := scan_pre_buffer packet pre.readBuffer waiting
  have short : (readLengthForTermWithPreBuffer packet pre.readBuffer).1 ≤ pre.availableBytes := by
    have room := allowance_le packet pre.readBuffer.length
    rw [← read_buffer_length pre fits]
    cases found : (readLengthForTermWithPreBuffer packet pre.readBuffer).2 with
    | true =>
        have bound := (scanned.found found).1
        rw [List.length_take] at bound
        omega
    | false =>
        have whole := (scanned.absent found).1
        rw [List.length_take] at whole
        omega
  exact scanned_read_on packet pre.readBuffer _ _ _ waiting rfl scanned rfl (capacity_same packet _)
    (did_read_fits pre _ fits short) (did_read_read_buffer pre _) rfl

theorem pending_allowance (packet : ReadPacket) (estimated : Nat) (chunk : Bytes)
    (few : chunk.length ≤ (readLengthForTermWithHint packet estimated).1) :
    packet.allowance chunk.length = chunk.length := by
  rw [readLengthForTermWithHint] at few
  rw [ReadPacket.allowance]
  by_cases limited : 0 < packet.maxLength
  · rw [if_pos limited] at few ⊢
    dsimp only at few
    omega
  · rw [if_neg limited]

-- Both ways of reading from the socket find the same terminator.
theorem read_from_socket (garbage : Nat → UInt8) (packet : ReadPacket) (pre : PreBuffer) (estimated : Nat)
    (chunk : Bytes) (waiting : Waiting packet) (fits : pre.Fits) (drained : pre.readBuffer = [])
    (few : chunk.length ≤ (readLengthForTermWithHint packet estimated).1) :
    ReadOn packet chunk (readFromSocket garbage packet pre estimated chunk) := by
  have scanned := scan_chunk packet chunk waiting
  have allowed := pending_allowance packet estimated chunk few
  rw [readFromSocket]
  by_cases buffered : (readLengthForTermWithHint packet estimated).2 = true
  · have grown := ensure_capacity_fits garbage pre (readLengthForTermWithHint packet estimated).1 fits
    have written := did_write_read_buffer _ chunk grown
    rw [ensure_capacity_read_buffer garbage pre _ fits, drained, List.nil_append] at written
    have read := read_from_pre_buffer packet _ waiting (did_write_fits _ chunk grown)
    rw [written] at read
    rw [if_pos buffered]
    exact read
  · have same := capacity_same packet (readLengthForTermWithHint packet estimated).1
    have whole : Scanned packet.term packet.bytes (chunk.take chunk.length)
        (searched chunk.length (searchForTermAfterPreBuffering packet chunk)) := by
      rw [List.take_length]
      exact scanned
    rw [if_neg buffered]
    cases answer : searchForTermAfterPreBuffering packet chunk with
    | none =>
        rw [answer] at whole
        refine scanned_read_on packet chunk _ _ _ waiting allowed.symm whole ?_ same fits ?_ rfl
        · rw [searched, List.take_length]
        · rw [searched, List.drop_length]
          exact drained
    | some overflow =>
        rw [answer] at whole
        cases overflow with
        | zero =>
            refine scanned_read_on packet chunk _ _ _ waiting allowed.symm whole ?_ same fits ?_ rfl
            · rw [searched, Nat.sub_zero, List.take_length]
              rfl
            · rw [searched, Nat.sub_zero, List.drop_length]
              exact drained
        | succ overflow =>
            have grown := ensure_capacity_fits garbage pre (overflow + 1) fits
            have written := did_write_read_buffer _ (chunk.drop (chunk.length - (overflow + 1))) grown
            rw [ensure_capacity_read_buffer garbage pre _ fits, drained, List.nil_append] at written
            exact scanned_read_on packet chunk _ _ _ waiting allowed.symm whole rfl same
              (did_write_fits _ _ grown) written rfl

theorem read_buffered (packet : ReadPacket) (pre : PreBuffer) (waiting : Waiting packet) (fits : pre.Fits) :
    ReadOn packet pre.readBuffer (readBuffered packet pre) := by
  rw [readBuffered]
  by_cases filled : 0 < pre.availableBytes
  · rw [if_pos filled]
    exact read_from_pre_buffer packet pre waiting fits
  · have drained : pre.readBuffer = [] := by
      rw [List.eq_nil_iff_length_eq_zero, read_buffer_length pre fits]
      omega
    rw [if_neg filled]
    exact ⟨rfl, ⟨rfl, rfl⟩, fits, fun absurd => Bool.noConfusion absurd, fun _ _ => ⟨waiting, drained⟩⟩

-- The second pass goes on where the first has left off.
theorem read_on_trans (packet : ReadPacket) (buffered chunk : Bytes) (first second : Reading)
    (begun : ReadOn packet buffered first) (drained : first.preBuffer.readBuffer = [])
    (went_on : ReadOn first.packet chunk second) : ReadOn packet (buffered ++ chunk) second := by
  refine ⟨?_, ?_, went_on.fits, went_on.complete, went_on.pending⟩
  · have earlier := begun.bytes
    rw [drained, List.append_nil] at earlier
    rw [went_on.bytes, earlier, List.append_assoc]
  · exact ⟨went_on.request.1.trans begun.request.1, went_on.request.2.trans begun.request.2⟩

theorem do_read_data (garbage : Nat → UInt8) (socket next : AsyncSocket) (packet : ReadPacket)
    (available : Option (Nat × Bytes)) (waiting : Waiting packet) (fits : socket.preBuffer.Fits)
    (read : doReadData garbage socket packet available = some next) :
    ∃ reading, next = finish socket reading ∧
      ReadOn packet (socket.preBuffer.readBuffer ++ (Event.doReadData available).chunk) reading := by
  have begun := read_buffered packet socket.preBuffer waiting fits
  unfold doReadData at read
  cases available with
  | none =>
      refine ⟨_, (Option.some.inj read).symm, ?_⟩
      rw [Event.chunk, Event.available, List.append_nil]
      exact begun
  | some socket_bytes =>
      obtain ⟨estimated, chunk⟩ := socket_bytes
      dsimp only at read
      by_cases reads : (readBuffered packet socket.preBuffer).done = false ∧
          ¬readMaxedOut (readBuffered packet socket.preBuffer) ∧ chunk ≠ [] ∧
          chunk.length ≤ (readLengthForTermWithHint (readBuffered packet socket.preBuffer).packet estimated).1
      · rw [if_pos reads] at read
        obtain ⟨unfinished, open_, -, few⟩ := reads
        obtain ⟨still, drained⟩ := begun.pending unfinished open_
        exact ⟨_, (Option.some.inj read).symm, read_on_trans packet _ chunk _ _ begun drained
          (read_from_socket garbage _ _ estimated chunk still begun.fits drained few)⟩
      · rw [if_neg reads] at read
        exact (Option.some_ne_none next read.symm).elim

def bytesOf (packets : List ReadPacket) : Bytes := packets.flatMap ReadPacket.bytes

def ReadPacket.request (packet : ReadPacket) : Bytes × Nat := (packet.term, packet.maxLength)

def AsyncSocket.packets (socket : AsyncSocket) : List ReadPacket :=
  socket.delivered ++ (socket.currentRead.toList ++ socket.readQueue)

-- What holds after every step, of the reads asked for and the bytes received so far.
structure Holds (asked : List (Bytes × Nat)) (bytes : Bytes) (socket : AsyncSocket) : Prop where
  fits : socket.preBuffer.Fits
  delivered : bytesOf socket.delivered <+: bytes
  kept : socket.closed = false →
    bytesOf socket.delivered ++ (bytesOf socket.currentRead.toList ++ socket.preBuffer.readBuffer) = bytes
  ordered : socket.closed = false → socket.packets.map ReadPacket.request = asked
  complete : ∀ packet ∈ socket.delivered, Complete packet
  current : ∀ packet, socket.currentRead = some packet → Waiting packet ∧ socket.preBuffer.readBuffer = []
  queued : ∀ packet ∈ socket.readQueue, Waiting packet ∧ packet.bytes = []

theorem finish_holds (asked : List (Bytes × Nat)) (bytes chunk : Bytes) (socket : AsyncSocket) (packet : ReadPacket)
    (reading : Reading) (queued : ∀ packet ∈ socket.readQueue, Waiting packet ∧ packet.bytes = [])
    (complete : ∀ packet ∈ socket.delivered, Complete packet)
    (kept : bytesOf socket.delivered ++ (packet.bytes ++ socket.preBuffer.readBuffer) = bytes)
    (ordered : (socket.delivered ++ packet :: socket.readQueue).map ReadPacket.request = asked)
    (read : ReadOn packet (socket.preBuffer.readBuffer ++ chunk) reading) :
    Holds asked (bytes ++ chunk) (finish socket reading) := by
  have whole : bytesOf socket.delivered ++ (reading.packet.bytes ++ reading.preBuffer.readBuffer) =
      bytes ++ chunk := by
    rw [read.bytes, ← kept]
    simp only [List.append_assoc]
  have before : bytesOf socket.delivered <+: bytes ++ chunk := ⟨_, whole⟩
  have same : (socket.delivered ++ reading.packet :: socket.readQueue).map ReadPacket.request = asked := by
    have request : reading.packet.request = packet.request := Prod.ext read.request.1 read.request.2
    rw [← ordered, List.map_append, List.map_append, List.map_cons, List.map_cons, request]
  rw [finish]
  by_cases done : reading.done = true
  · have filled : bytesOf (socket.delivered ++ [reading.packet]) =
        bytesOf socket.delivered ++ reading.packet.bytes := by
      rw [bytesOf, List.flatMap_append, List.flatMap_singleton, bytesOf]
    rw [if_pos done]
    refine ⟨read.fits, ⟨reading.preBuffer.readBuffer, ?_⟩, fun _ => ?_, fun _ => ?_, fun packet delivered => ?_,
      fun packet absurd => (Option.some_ne_none packet absurd.symm).elim, queued⟩
    · dsimp only
      rw [filled, List.append_assoc]
      exact whole
    · dsimp only [Option.toList]
      rw [filled, List.append_assoc]
      exact whole
    · rw [AsyncSocket.packets, Option.toList, List.nil_append, List.append_assoc, List.singleton_append]
      exact same
    · rcases List.mem_append.mp delivered with earlier | last
      · exact complete packet earlier
      · exact List.mem_singleton.mp last ▸ read.complete done
  · have unfinished := Bool.eq_false_iff.mpr done
    rw [if_neg done]
    by_cases full : readMaxedOut reading
    · rw [if_pos full]
      exact ⟨⟨Nat.le_refl 0, Nat.zero_le _⟩, before, fun absurd => Bool.noConfusion absurd,
        fun absurd => Bool.noConfusion absurd, complete,
        fun packet absurd => (Option.some_ne_none packet absurd.symm).elim,
        fun packet absurd => (List.not_mem_nil absurd).elim⟩
    · obtain ⟨waiting, drained⟩ := read.pending unfinished full
      rw [if_neg full]
      refine ⟨read.fits, before, fun _ => ?_, fun _ => same, complete, fun packet same => ?_, queued⟩
      · dsimp only [Option.toList]
        rw [bytesOf, bytesOf, List.flatMap_singleton]
        exact whole
      · exact Option.some.inj same ▸ ⟨waiting, drained⟩

theorem fresh_waiting (data : Bytes) (maxLength capacity : Nat)
    (accepted : ¬(data = [] ∨ (0 < maxLength ∧ maxLength < data.length))) :
    Waiting ⟨[], capacity, maxLength, data⟩ := by
  obtain ⟨some_data, fits⟩ := not_or.mp accepted
  refine ⟨List.length_pos_iff.mpr some_data, fun limited => Nat.le_of_not_lt fun short => fits ⟨limited, short⟩,
    id, fun place ends => ?_⟩
  have behind := ends.1
  have inside := ends.2.1
  have length := List.length_pos_iff.mpr some_data
  rw [List.length_nil] at inside
  dsimp only at behind
  omega

theorem step_holds (garbage : Nat → UInt8) (asked : List (Bytes × Nat)) (bytes : Bytes) (socket next : AsyncSocket)
    (event : Event) (holds : Holds asked bytes socket) (stepped : step garbage socket event = some next) :
    Holds (asked ++ event.request.toList) (bytes ++ event.chunk) next := by
  unfold step at stepped
  by_cases closed : socket.closed = true
  · rw [if_pos closed] at stepped
    exact (Option.some_ne_none next stepped.symm).elim
  · have open_ := Bool.eq_false_iff.mpr closed
    have kept := holds.kept open_
    have ordered := holds.ordered open_
    rw [AsyncSocket.packets] at ordered
    rw [if_neg closed] at stepped
    cases event with
    | readDataToData data maxLength capacity =>
        rw [Event.chunk, Event.available, List.append_nil]
        dsimp only at stepped
        by_cases refused : data = [] ∨ (0 < maxLength ∧ maxLength < data.length)
        · rw [if_pos refused] at stepped
          rw [Event.request, if_pos refused, Option.toList, List.append_nil]
          exact Option.some.inj stepped ▸ holds
        · rw [if_neg refused] at stepped
          obtain rfl := Option.some.inj stepped
          refine ⟨holds.fits, holds.delivered, holds.kept, fun _ => ?_, holds.complete, holds.current,
            fun packet queued => ?_⟩
          · rw [Event.request, if_neg refused, ← ordered, AsyncSocket.packets, ← List.append_assoc,
              ← List.append_assoc, List.map_append, List.append_assoc socket.delivered]
            rfl
          · rcases List.mem_append.mp queued with earlier | last
            · exact holds.queued packet earlier
            · exact List.mem_singleton.mp last ▸ ⟨fresh_waiting data maxLength capacity refused, rfl⟩
    | maybeDequeueRead available =>
        rw [Event.request, Option.toList, List.append_nil]
        dsimp only at stepped
        cases idle : socket.currentRead with
        | some packet =>
            rw [idle] at stepped
            exact (Option.some_ne_none next stepped.symm).elim
        | none =>
            cases queue : socket.readQueue with
            | nil =>
                rw [idle, queue] at stepped
                exact (Option.some_ne_none next stepped.symm).elim
            | cons packet rest =>
                rw [idle, queue] at stepped
                obtain ⟨waiting, fresh⟩ := holds.queued packet (queue ▸ List.mem_cons_self)
                obtain ⟨reading, rfl, read⟩ :=
                  do_read_data garbage { socket with readQueue := rest } next packet available waiting holds.fits
                    stepped
                rw [idle] at kept ordered
                refine finish_holds asked bytes _ { socket with readQueue := rest } packet reading
                  (fun packet later => ?_) holds.complete ?_ ?_ read
                · exact holds.queued packet (queue ▸ List.mem_cons_of_mem _ later)
                · rw [fresh]
                  exact kept
                · rw [queue] at ordered
                  exact ordered
    | doReadData available =>
        rw [Event.request, Option.toList, List.append_nil]
        dsimp only at stepped
        cases pending : socket.currentRead with
        | none =>
            rw [pending] at stepped
            exact (Option.some_ne_none next stepped.symm).elim
        | some packet =>
            rw [pending] at stepped
            obtain ⟨waiting, -⟩ := holds.current packet pending
            obtain ⟨reading, rfl, read⟩ := do_read_data garbage _ next packet available waiting holds.fits stepped
            rw [pending] at kept ordered
            refine finish_holds asked bytes _ _ packet reading holds.queued holds.complete ?_ ordered read
            rw [Option.toList, bytesOf, bytesOf, List.flatMap_singleton] at kept
            exact kept

theorem run_holds (garbage : Nat → UInt8) (memory : Bytes) (events : List Event) (final : AsyncSocket)
    (ran : Runs.run (step garbage) (connected memory) events = some final) :
    Holds (requests events) (received events) final := by
  refine Runs.run_history (step garbage) (fun past socket => Holds (requests past) (received past) socket)
    (fun past socket event next holds stepped => ?_) [] _ final events ran ?_
  · have now := step_holds garbage (requests past) (received past) socket next event holds stepped
    have asked_now : [event].filterMap Event.request = event.request.toList := by
      cases asked : event.request with
      | none => rw [List.filterMap_cons_none asked, List.filterMap_nil, Option.toList]
      | some request => rw [List.filterMap_cons_some asked, List.filterMap_nil, Option.toList]
    rw [received, requests, List.flatMap_append, List.flatMap_singleton, List.filterMap_append, asked_now]
    exact now
  · exact ⟨⟨Nat.le_refl 0, Nat.zero_le _⟩, List.prefix_rfl, fun _ => rfl, fun _ => rfl,
      fun packet absurd => (List.not_mem_nil absurd).elim,
      fun packet absurd => (Option.some_ne_none packet absurd.symm).elim,
      fun packet absurd => (List.not_mem_nil absurd).elim⟩

-- Every delivered packet ends with its first terminator, nothing that came in is
-- lost or moved, and a read that is pending has seen all of it.
theorem reads_account (garbage : Nat → UInt8) (memory : Bytes) (events : List Event) (final : AsyncSocket)
    (ran : Runs.run (step garbage) (connected memory) events = some final) :
    bytesOf final.delivered <+: received events ∧
      (final.closed = false → bytesOf final.delivered ++
        (bytesOf final.currentRead.toList ++ final.preBuffer.readBuffer) = received events) ∧
      (∀ packet ∈ final.delivered, Complete packet) ∧
      ∀ packet, final.currentRead = some packet →
        (∀ place, ¬Ends packet.term packet.bytes place) ∧ final.preBuffer.availableBytes = 0 := by
  have holds := run_holds garbage memory events final ran
  refine ⟨holds.delivered, holds.kept, holds.complete, fun packet pending => ?_⟩
  obtain ⟨waiting, drained⟩ := holds.current packet pending
  refine ⟨waiting.absent, ?_⟩
  rw [← read_buffer_length final.preBuffer holds.fits, drained, List.length_nil]

def twoLines : List Event :=
  [.readDataToData [13, 10] 0 0, .readDataToData [13, 10] 8 0, .maybeDequeueRead (some (16, [97, 13])),
    .doReadData (some (16, [10, 98, 13])), .maybeDequeueRead none, .doReadData (some (1, [10]))]

-- Both terminators are split between two reads of the socket.
theorem two_lines_account : ∃ final, Runs.run (step fun _ => 0) (connected []) twoLines = some final ∧
    bytesOf final.delivered = [97, 13, 10, 98, 13, 10] ∧ bytesOf final.delivered <+: received twoLines := by
  have ran : (Runs.run (step fun _ => 0) (connected []) twoLines).isSome = true := by decide +kernel
  obtain ⟨final, found⟩ := Option.isSome_iff_exists.mp ran
  refine ⟨final, found, ?_, (reads_account _ [] twoLines final found).1⟩
  have bytes : (Runs.run (step fun _ => 0) (connected []) twoLines).map (fun socket => bytesOf socket.delivered) =
      some [97, 13, 10, 98, 13, 10] := by decide +kernel
  rw [found] at bytes
  exact Option.some.inj bytes

-- What the reads are to cut from the bytes, whatever the pieces they come in.
inductive Cuts : List (Bytes × Nat) → Bytes → List Bytes → Prop
  | idle (data : Bytes) : Cuts [] data []
  | waits (term : Bytes) (maxLength : Nat) (rest : List (Bytes × Nat)) (data : Bytes)
      (absent : ∀ place, ¬Ends term data place) : Cuts ((term, maxLength) :: rest) data []
  | takes (term : Bytes) (maxLength : Nat) (rest : List (Bytes × Nat)) (piece data : Bytes) (pieces : List Bytes)
      (ends : Ends term (piece ++ data) piece.length)
      (first : ∀ place, Ends term (piece ++ data) place → piece.length ≤ place)
      (later : Cuts rest data pieces) : Cuts ((term, maxLength) :: rest) (piece ++ data) (piece :: pieces)

theorem cuts_unique (asked : List (Bytes × Nat)) (data : Bytes) (pieces others : List Bytes)
    (cut : Cuts asked data pieces) (cut_other : Cuts asked data others) : pieces = others := by
  induction cut generalizing others with
  | idle data =>
      cases cut_other with
      | idle => rfl
  | waits term maxLength rest data absent =>
      cases cut_other with
      | waits => rfl
      | takes _ _ _ piece data pieces ends => exact (absent _ ends).elim
  | takes term maxLength rest piece data pieces ends first later ih =>
      generalize whole : piece ++ data = total at cut_other
      cases cut_other with
      | waits _ _ _ _ absent => exact (absent piece.length (whole ▸ ends)).elim
      | takes _ _ _ other more _ other_ends other_first other_later =>
          have lengths : piece.length = other.length :=
            Nat.le_antisymm (first _ (whole ▸ other_ends)) (other_first _ (whole ▸ ends))
          obtain ⟨rfl, rfl⟩ := List.append_inj whole lengths
          rw [ih _ other_later]

theorem complete_cuts (delivered : List ReadPacket) (complete : ∀ packet ∈ delivered, Complete packet)
    (rest : List (Bytes × Nat)) (data : Bytes) (later : Cuts rest data []) :
    Cuts (delivered.map ReadPacket.request ++ rest) (bytesOf delivered ++ data) (delivered.map ReadPacket.bytes) := by
  induction delivered with
  | nil => exact later
  | cons packet packets ih =>
      obtain ⟨ends, first, -⟩ := complete packet List.mem_cons_self
      have others := ih fun packet inside => complete packet (List.mem_cons_of_mem _ inside)
      rw [bytesOf, List.flatMap_cons, List.append_assoc]
      refine .takes _ _ _ _ _ _ ((ends_append _ _ _ _ (Nat.le_refl _)).mpr ends) (fun place placed => ?_) others
      by_contra early
      have inside := Nat.le_of_not_le early
      exact early (Nat.le_of_eq (first place ((ends_append _ _ _ _ inside).mp placed)).symm)

-- The queue has been looked at since the last read ended.
def Settled (socket : AsyncSocket) : Prop :=
  socket.closed = false ∧ (socket.currentRead = none → socket.readQueue = [])

theorem settled_cuts (asked : List (Bytes × Nat)) (bytes : Bytes) (socket : AsyncSocket)
    (holds : Holds asked bytes socket) (settled : Settled socket) :
    Cuts asked bytes (socket.delivered.map ReadPacket.bytes) := by
  obtain ⟨open_, looked⟩ := settled
  rw [← holds.ordered open_, ← holds.kept open_, AsyncSocket.packets, List.map_append]
  refine complete_cuts socket.delivered holds.complete _ _ ?_
  cases pending : socket.currentRead with
  | none =>
      rw [looked pending]
      exact .idle _
  | some packet =>
      obtain ⟨waiting, drained⟩ := holds.current packet pending
      rw [drained, List.append_nil, Option.toList, bytesOf, List.flatMap_singleton]
      exact .waits _ _ _ _ waiting.absent

-- How the bytes are split, how much room the buffers have and what lies in
-- their memory make no difference to what is delivered.
theorem chunks_do_not_matter (garbage other_garbage : Nat → UInt8) (memory other_memory : Bytes)
    (events others : List Event) (final other_final : AsyncSocket)
    (ran : Runs.run (step garbage) (connected memory) events = some final)
    (other_ran : Runs.run (step other_garbage) (connected other_memory) others = some other_final)
    (same_requests : requests events = requests others) (same_bytes : received events = received others)
    (settled : Settled final) (other_settled : Settled other_final) :
    final.delivered.map ReadPacket.bytes = other_final.delivered.map ReadPacket.bytes := by
  have cut := settled_cuts _ _ final (run_holds garbage memory events final ran) settled
  have other_cut :=
    settled_cuts _ _ other_final (run_holds other_garbage other_memory others other_final other_ran) other_settled
  rw [same_requests, same_bytes] at cut
  exact cuts_unique _ _ _ _ cut other_cut

-- The same bytes at once, into a buffer that has room for them.
def twoLinesAtOnce : List Event :=
  [.readDataToData [13, 10] 0 8, .maybeDequeueRead (some (6, [97, 13, 10, 98, 13, 10])),
    .readDataToData [13, 10] 8 0, .maybeDequeueRead none]

theorem two_lines_at_once : ∃ final other_final,
    Runs.run (step fun _ => 0) (connected []) twoLines = some final ∧
      Runs.run (step fun _ => 7) (connected [1]) twoLinesAtOnce = some other_final ∧
      final.delivered.map ReadPacket.bytes = other_final.delivered.map ReadPacket.bytes := by
  have ran : (Runs.run (step fun _ => 0) (connected []) twoLines).map
      (fun socket => (socket.closed, socket.currentRead, socket.readQueue)) = some (false, none, []) := by
    decide +kernel
  have other_ran : (Runs.run (step fun _ => 7) (connected [1]) twoLinesAtOnce).map
      (fun socket => (socket.closed, socket.currentRead, socket.readQueue)) = some (false, none, []) := by
    decide +kernel
  obtain ⟨final, found, state⟩ := Option.map_eq_some_iff.mp ran
  obtain ⟨other_final, other_found, other_state⟩ := Option.map_eq_some_iff.mp other_ran
  refine ⟨final, other_final, found, other_found, chunks_do_not_matter _ _ [] [1] twoLines twoLinesAtOnce final
    other_final found other_found (by decide) (by decide) ?_ ?_⟩
  · exact ⟨congrArg Prod.fst state, fun _ => congrArg (fun parts => parts.2.2) state⟩
  · exact ⟨congrArg Prod.fst other_state, fun _ => congrArg (fun parts => parts.2.2) other_state⟩

end CultivationMotain.SocketGame.TermReads

import CultivationMotain.SocketGame.JoinGame

set_option autoImplicit false

namespace CultivationMotain.SocketGame

variable {Object : Type}

-- The host's end of one connection, the bytes on their way and the join side;
-- sent is a ghost, the packets given to sendPocket.
structure Game (Object : Type) where
  sent : List (Packet Object)
  inFlight : Bytes
  join : JoinGame Object

def Game.connected : Game Object := ⟨[], [], didConnectToHost JoinGame.unconnected⟩

inductive GameEvent (Object : Type) where
  | send (packet : Packet Object)
  | deliver (count : Nat)
  | completeRead
  | didRead

def GameEvent.reads : GameEvent Object → Prop
  | .send _ => False
  | .deliver _ => True
  | .completeRead => True
  | .didRead => True

section Stream

variable (archiver : KeyedArchiver Object) (order : ByteOrder)

def sendPocket (pocket : Packet Object) : Bytes :=
  let data := archiver.archive pocket.encodeWithCoder
  let length := UInt64.ofNat data.length
  uint64Bytes order length ++ data.take length.toNat

-- The stream arrives in order, cut into chunks anywhere.
def gameStep (game : Game Object) : GameEvent Object → Option (Game Object)
  | .send packet =>
      some { game with sent := game.sent ++ [packet], inFlight := game.inFlight ++ sendPocket archiver order packet }
  | .deliver count =>
      if 0 < count ∧ count ≤ game.inFlight.length then
        (joinStep archiver order game.join (.receive (game.inFlight.take count))).map fun join =>
          { game with inFlight := game.inFlight.drop count, join := join }
      else none
  | .completeRead => (joinStep archiver order game.join .completeRead).map fun join => { game with join := join }
  | .didRead => (joinStep archiver order game.join .didRead).map fun join => { game with join := join }

def frames : List (Packet Object) → Bytes
  | [] => []
  | packet :: rest => sendPocket archiver order packet ++ frames rest

theorem frames_append (first second : List (Packet Object)) :
    frames archiver order (first ++ second) = frames archiver order first ++ frames archiver order second := by
  induction first with
  | nil => rfl
  | cons packet rest ih => rw [List.cons_append, frames, ih, frames, List.append_assoc]

theorem archive_length_fits (packet : Packet Object) (archives : Archives archiver packet) :
    (UInt64.ofNat (archiver.archive packet.encodeWithCoder).length).toNat =
      (archiver.archive packet.encodeWithCoder).length :=
  UInt64.toNat_ofNat_of_lt' archives.short

theorem send_pocket_frame (packet : Packet Object) (archives : Archives archiver packet) :
    sendPocket archiver order packet =
      uint64Bytes order (UInt64.ofNat (archiver.archive packet.encodeWithCoder).length) ++
        archiver.archive packet.encodeWithCoder := by
  rw [sendPocket, archive_length_fits archiver packet archives, List.take_length]

-- Where the reader stands in the stream: what it asks for, the bytes from there
-- on, and the packets it has yet to log.
inductive Expects : ReadRequest → Bytes → List (Packet Object) → Prop where
  | header (packets : List (Packet Object)) : Expects ⟨8, 0⟩ (frames archiver order packets) packets
  | body (packet : Packet Object) (rest : List (Packet Object)) :
      Expects ⟨(archiver.archive packet.encodeWithCoder).length, 1⟩
        (archiver.archive packet.encodeWithCoder ++ frames archiver order rest) (packet :: rest)

theorem expects_send (request : ReadRequest) (bytes : Bytes) (packets : List (Packet Object)) (packet : Packet Object)
    (expects : Expects archiver order request bytes packets) :
    Expects archiver order request (bytes ++ sendPocket archiver order packet) (packets ++ [packet]) := by
  have last : frames archiver order [packet] = sendPocket archiver order packet := List.append_nil _
  cases expects with
  | header =>
      rw [← last, ← frames_append]
      exact .header _
  | body head rest =>
      rw [← last, List.append_assoc, ← frames_append, List.cons_append]
      exact .body head _

theorem expects_positive (request : ReadRequest) (bytes : Bytes) (packets : List (Packet Object))
    (archives : ∀ packet ∈ packets, Archives archiver packet) (expects : Expects archiver order request bytes packets) :
    request.length ≠ 0 := by
  cases expects with
  | header => exact Nat.succ_ne_zero 7
  | body packet rest =>
      intro zero
      exact (archives packet List.mem_cons_self).nonempty (List.length_eq_zero_iff.mp zero)

-- A read that never completes is a header's, after the last frame.
theorem expects_short (request : ReadRequest) (bytes : Bytes) (packets : List (Packet Object))
    (archives : ∀ packet ∈ packets, Archives archiver packet) (expects : Expects archiver order request bytes packets)
    (short : bytes.length < request.length) : request = ⟨8, 0⟩ ∧ bytes = [] ∧ packets = [] := by
  cases expects with
  | header =>
      cases packets with
      | nil => exact ⟨rfl, rfl, rfl⟩
      | cons packet rest =>
          rw [frames, send_pocket_frame archiver order packet (archives packet List.mem_cons_self)] at short
          simp only [List.length_append, uint64_bytes_length] at short
          omega
  | body packet rest =>
      rw [List.length_append] at short
      exact absurd short (Nat.not_lt.mpr (Nat.le_add_right _ _))

theorem expects_did_read (idle : JoinGame Object) (request : ReadRequest) (data rest : Bytes)
    (packets : List (Packet Object)) (archives : ∀ packet ∈ packets, Archives archiver packet)
    (expects : Expects archiver order request (data ++ rest) packets) (whole : data.length = request.length) :
    ∃ logged left length tag, packets = logged ++ left ∧ length ≠ 0 ∧ Expects archiver order ⟨length, tag⟩ rest left ∧
      didReadData archiver order idle data request.tag =
        readDataToLength { idle with parsed := idle.parsed ++ logged.map some } length tag := by
  generalize stream : data ++ rest = bytes at expects
  cases expects with
  | header =>
      cases packets with
      | nil =>
          have empty : data = [] := (List.append_eq_nil_iff.mp stream).1
          rw [empty] at whole
          cases whole
      | cons packet left =>
          have archived := archives packet List.mem_cons_self
          rw [frames, send_pocket_frame archiver order packet archived, List.append_assoc] at stream
          obtain ⟨head, remaining⟩ := List.append_inj stream (whole.trans (uint64_bytes_length order _).symm)
          refine ⟨[], packet :: left, (archiver.archive packet.encodeWithCoder).length, 1, rfl, ?_, ?_, ?_⟩
          · exact fun zero => archived.nonempty (List.length_eq_zero_iff.mp zero)
          · rw [remaining]
            exact .body packet left
          · rw [didReadData, if_pos rfl, parseHeader, head, uint64_round_trip,
              archive_length_fits archiver packet archived, List.map_nil, List.append_nil]
  | body packet left =>
      have archived := archives packet List.mem_cons_self
      obtain ⟨head, remaining⟩ := List.append_inj stream whole
      refine ⟨[packet], left, 8, 0, rfl, Nat.succ_ne_zero 7, ?_, ?_⟩
      · rw [remaining]
        exact .header left
      · have decoded : parseBody archiver data = some (some packet) := by
          rw [parseBody, head, archived.unarchives, Option.map_some, Option.map_some, init_with_encoded]
        rw [didReadData, if_neg Int.one_ne_zero, if_pos rfl, decoded]
        rfl

-- The invariant of a connection: the packets sent are the ones logged and the
-- ones still in the stream, in order.
structure Framed (game : Game Object) (left : List (Packet Object)) (request : ReadRequest) (pending : Bytes) :
    Prop where
  waits : Awaits game.join request pending
  expects : Expects archiver order request (pending ++ game.inFlight) left
  archives : ∀ packet ∈ left, Archives archiver packet
  sent : game.join.parsed ++ left.map some = game.sent.map some

theorem framed_awaits (game : Game Object) (left : List (Packet Object)) (request : ReadRequest) (pending : Bytes)
    (join : JoinGame Object) (framed : Framed archiver order game left request pending)
    (waits : Awaits join request pending) (same : join.parsed = game.join.parsed) :
    Framed archiver order { game with join := join } left request pending :=
  ⟨waits, framed.expects, framed.archives, by rw [same]; exact framed.sent⟩

-- Every event keeps the invariant and, the host's apart, uses up some of the
-- stream: a byte is delivered, then taken by a read, then its callback runs.
def remainingWork (game : Game Object) : Nat :=
  3 * game.inFlight.length + 2 * game.join.received.length + game.join.callbacks.length

def Reading (game : Game Object) : Prop := ∃ left request pending, Framed archiver order game left request pending

theorem send_framed (game next : Game Object) (packet : Packet Object) (archives : Archives archiver packet)
    (reading : Reading archiver order game) (taken : gameStep archiver order game (.send packet) = some next) :
    Reading archiver order next := by
  obtain ⟨left, request, pending, framed⟩ := reading
  cases taken
  refine ⟨left ++ [packet], request, pending, framed.waits, ?_, ?_, ?_⟩
  · rw [← List.append_assoc]
    exact expects_send archiver order request _ left packet framed.expects
  · intro other member
    cases List.mem_append.mp member with
    | inl earlier => exact framed.archives other earlier
    | inr last => exact List.mem_singleton.mp last ▸ archives
  · rw [List.map_append, List.map_append, ← List.append_assoc, framed.sent]

theorem deliver_framed (game next : Game Object) (count : Nat) (reading : Reading archiver order game)
    (taken : gameStep archiver order game (.deliver count) = some next) :
    Reading archiver order next ∧ remainingWork next < remainingWork game := by
  obtain ⟨left, request, pending, framed⟩ := reading
  simp only [gameStep, joinStep, if_pos (awaits_connected _ _ _ framed.waits), Option.map_some] at taken
  split at taken
  · rename_i cut
    cases taken
    refine ⟨⟨left, request, _, awaits_receive _ _ _ _ framed.waits, ?_, framed.archives, framed.sent⟩, ?_⟩
    · rw [List.append_assoc, List.take_append_drop]
      exact framed.expects
    · have moved := List.length_take_of_le cut.2
      simp only [remainingWork, List.length_append, List.length_drop, moved]
      omega
  · cases taken

theorem complete_read_framed (game next : Game Object) (reading : Reading archiver order game)
    (taken : gameStep archiver order game .completeRead = some next) :
    Reading archiver order next ∧ remainingWork next < remainingWork game := by
  obtain ⟨left, request, pending, framed⟩ := reading
  obtain ⟨join, completed, rfl⟩ := Option.map_eq_some_iff.mp taken
  obtain ⟨waits, same, ran, used⟩ := awaits_complete_read archiver order _ _ _ _ framed.waits completed
  have positive := expects_positive archiver order _ _ _ framed.archives framed.expects
  refine ⟨⟨left, request, pending, framed_awaits archiver order game left request pending join framed waits same⟩, ?_⟩
  simp only [remainingWork]
  omega

theorem did_read_framed (game next : Game Object) (reading : Reading archiver order game)
    (taken : gameStep archiver order game .didRead = some next) :
    Reading archiver order next ∧ remainingWork next < remainingWork game := by
  obtain ⟨left, request, pending, framed⟩ := reading
  obtain ⟨join, read, rfl⟩ := Option.map_eq_some_iff.mp taken
  obtain ⟨data, idle, stream, whole, one, same, none, called⟩ :=
    awaits_did_read archiver order _ _ _ _ framed.waits read
  have expects := framed.expects
  rw [stream, List.append_assoc] at expects
  obtain ⟨logged, rest, length, tag, split, positive, after, did⟩ :=
    expects_did_read archiver order idle request data _ left framed.archives expects whole
  have connected := awaits_connected _ _ _ framed.waits
  have waits := awaits_request { idle with parsed := idle.parsed ++ logged.map some } length tag
    (by rw [same]; exact connected) (by rw [same]) none positive
  rw [did] at called
  rw [← called] at waits
  have unread : join.received = game.join.received := by rw [called, readDataToLength, if_neg positive, same]
  have idleNow : join.callbacks = [] := by rw [called, readDataToLength, if_neg positive, same]
  have extended : join.parsed = game.join.parsed ++ logged.map some := by
    rw [called, readDataToLength, if_neg positive, same]
  constructor
  · refine ⟨rest, ⟨length, tag⟩, _, waits, ?_, ?_, ?_⟩
    · rw [same]
      exact after
    · exact fun packet member => framed.archives packet (split ▸ List.mem_append_right _ member)
    · rw [extended, List.append_assoc, ← List.map_append, ← split]
      exact framed.sent
  · simp only [remainingWork, unread, idleNow, one, List.length_nil, List.length_cons]
    omega

theorem step_reading (game next : Game Object) (event : GameEvent Object)
    (archives : ∀ packet, event = .send packet → Archives archiver packet) (reading : Reading archiver order game)
    (taken : gameStep archiver order game event = some next) : Reading archiver order next := by
  cases event with
  | send packet => exact send_framed archiver order game next packet (archives packet rfl) reading taken
  | deliver count => exact (deliver_framed archiver order game next count reading taken).1
  | completeRead => exact (complete_read_framed archiver order game next reading taken).1
  | didRead => exact (did_read_framed archiver order game next reading taken).1

theorem read_works (game next : Game Object) (event : GameEvent Object) (reads : event.reads)
    (reading : Reading archiver order game) (taken : gameStep archiver order game event = some next) :
    Reading archiver order next ∧ remainingWork next < remainingWork game := by
  cases event with
  | send packet => exact reads.elim
  | deliver count => exact deliver_framed archiver order game next count reading taken
  | completeRead => exact complete_read_framed archiver order game next reading taken
  | didRead => exact did_read_framed archiver order game next reading taken

theorem connected_reading : Reading archiver order (Game.connected : Game Object) :=
  ⟨[], ⟨8, 0⟩, [], .queued rfl rfl rfl rfl, .header [], fun _ member => (List.not_mem_nil member).elim, rfl⟩

-- A connection at rest has delivered every byte, and no read can complete.
theorem rest_waits (game : Game Object) (request : ReadRequest) (pending : Bytes)
    (waits : Awaits game.join request pending)
    (rest : ∀ event : GameEvent Object, event.reads → gameStep archiver order game event = none) :
    game.inFlight = [] ∧ game.join.received = pending ∧ game.join.callbacks = [] ∧ game.join.readQueue = [request] ∧
      pending.length < request.length := by
  have delivered : game.inFlight = [] := by
    by_contra some
    have bound : 0 < game.inFlight.length ∧ game.inFlight.length ≤ game.inFlight.length :=
      ⟨List.length_pos_of_ne_nil some, Nat.le_refl _⟩
    have stuck := rest (.deliver game.inFlight.length) trivial
    simp only [gameStep, if_pos bound, joinStep, if_pos (awaits_connected _ _ _ waits), Option.map_some] at stuck
    cases stuck
  cases waits with
  | queued connected queue idle arrived =>
      refine ⟨delivered, arrived, idle, queue, ?_⟩
      have stuck := Option.map_eq_none_iff.mp (rest .completeRead trivial)
      simp only [joinStep, queue, ← arrived] at stuck ⊢
      split at stuck
      · cases stuck
      · rename_i short
        exact Nat.not_le.mp short
  | completed data connected queue callback =>
      have stuck := Option.map_eq_none_iff.mp (rest .didRead trivial)
      simp only [joinStep, callback] at stuck
      cases stuck

-- However the stream of the frames is cut, what the reader logs is always the
-- packets sent so far up to one of them; it comes to rest after at most the
-- remaining work, and at rest it has logged them all and waits for a header.
theorem framing_round_trip (events : List (GameEvent Object)) (game : Game Object)
    (archives : ∀ packet, GameEvent.send packet ∈ events → Archives archiver packet)
    (ran : Runs.run (gameStep archiver order) Game.connected events = some game) :
    (∃ left, game.join.parsed ++ left = game.sent.map some) ∧
      (∀ more after, (∀ event ∈ more, event.reads) → Runs.run (gameStep archiver order) game more = some after →
        more.length ≤ remainingWork game) ∧
      ((∀ event : GameEvent Object, event.reads → gameStep archiver order game event = none) →
        game.join.parsed = game.sent.map some ∧ game.join.readQueue = [⟨8, 0⟩] ∧ game.join.callbacks = [] ∧
          game.join.received = [] ∧ game.inFlight = []) := by
  have reading : Reading archiver order game := by
    refine Runs.run_invariant _ (Reading archiver order)
      (fun event => ∀ packet, event = .send packet → Archives archiver packet) ?_ Game.connected game events ?_ ran
      (connected_reading archiver order)
    · intro state event next start archived taken
      exact step_reading archiver order state next event archived start taken
    · exact fun event member packet same => archives packet (same ▸ member)
  obtain ⟨left, request, pending, framed⟩ := reading
  refine ⟨⟨_, framed.sent⟩, ?_, ?_⟩
  · intro more after reads continued
    refine Runs.run_length_le _ (Reading archiver order) GameEvent.reads remainingWork ?_ ?_ game after more reads
      continued ⟨left, request, pending, framed⟩
    · exact fun state event next start read taken => (read_works archiver order state next event read start taken).1
    · exact fun state event next start read taken => (read_works archiver order state next event read start taken).2
  · intro rest
    obtain ⟨delivered, arrived, idle, queue, short⟩ := rest_waits archiver order game request pending framed.waits rest
    have expects := framed.expects
    rw [delivered, List.append_nil] at expects
    obtain ⟨header, empty, all⟩ := expects_short archiver order request pending left framed.archives expects short
    have sent := framed.sent
    rw [all, List.map_nil, List.append_nil] at sent
    exact ⟨sent, header ▸ queue, idle, arrived.trans empty, delivered⟩

end Stream

def sampleArchiver : KeyedArchiver UInt8 where
  archive coder :=
    match coder.objects, coder.integers with
    | [(_, some object)], [(_, type), (_, action)] =>
        object :: uint64Bytes .bigEndian type.toUInt64 ++ uint64Bytes .bigEndian action.toUInt64
    | _, _ => []
  unarchive
    | [] => none
    | object :: integers =>
        some (some ⟨[(pocketKeyData, some object)],
          [(pocketKeyType, (uint64Value .bigEndian integers).toInt64),
            (pocketKeyAction, (uint64Value .bigEndian (integers.drop 8)).toInt64)]⟩)

def samplePackets : Packet UInt8 × Packet UInt8 := (⟨some 72, 0, 0⟩, ⟨some 101, 1, 2⟩)

def sampleDelivery : List (GameEvent UInt8) :=
  [.send samplePackets.1, .send samplePackets.2, .deliver 11, .completeRead, .didRead, .deliver 20, .completeRead,
    .didRead, .deliver 19, .completeRead, .didRead, .completeRead, .didRead]

def sampleReceived : Game UInt8 :=
  ⟨[samplePackets.1, samplePackets.2], [], ⟨true, [], [⟨8, 0⟩], [], [some samplePackets.1, some samplePackets.2]⟩⟩

theorem sample_archives (packet : Packet UInt8) (sent : GameEvent.send packet ∈ sampleDelivery) :
    Archives sampleArchiver packet := by
  have one : packet = samplePackets.1 ∨ packet = samplePackets.2 := by
    simpa [sampleDelivery] using sent
  cases one with
  | inl first => exact first ▸ ⟨by decide, by decide, by decide⟩
  | inr second => exact second ▸ ⟨by decide, by decide, by decide⟩

theorem framing_round_trip_two :
    ((∃ left, sampleReceived.join.parsed ++ left = sampleReceived.sent.map some) ∧
      (∀ more after, (∀ event ∈ more, event.reads) →
        Runs.run (gameStep sampleArchiver .littleEndian) sampleReceived more = some after →
        more.length ≤ remainingWork sampleReceived) ∧
      ((∀ event : GameEvent UInt8, event.reads → gameStep sampleArchiver .littleEndian sampleReceived event = none) →
        sampleReceived.join.parsed = sampleReceived.sent.map some ∧ sampleReceived.join.readQueue = [⟨8, 0⟩] ∧
          sampleReceived.join.callbacks = [] ∧ sampleReceived.join.received = [] ∧ sampleReceived.inFlight = [])) :=
  framing_round_trip sampleArchiver .littleEndian sampleDelivery sampleReceived sample_archives (by rfl)

end CultivationMotain.SocketGame

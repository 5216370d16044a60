import CultivationMotain.Library.Runs
import CultivationMotain.SocketGame.Packet

set_option autoImplicit false

namespace CultivationMotain.SocketGame

structure ReadRequest where
  length : Nat
  tag : Int
deriving DecidableEq, Repr

-- The join side with its socket. received holds the bytes that no read has
-- taken yet, readQueue the reads from the current one on, callbacks the reads
-- completed whose didReadData is still to run on the main queue; parsed is a
-- ghost, what parseBody logged.
structure JoinGame (Object : Type) where
  connected : Bool
  received : Bytes
  readQueue : List ReadRequest
  callbacks : List (Bytes × Int)
  parsed : List (Option (Packet Object))

variable {Object : Type}

def JoinGame.unconnected : JoinGame Object := ⟨false, [], [], [], []⟩

-- A request of length zero is logged and ignored.
def readDataToLength (join : JoinGame Object) (length : Nat) (tag : Int) : JoinGame Object :=
  if length = 0 then join else { join with readQueue := join.readQueue ++ [⟨length, tag⟩] }

def didConnectToHost (join : JoinGame Object) : JoinGame Object :=
  readDataToLength { join with connected := true, received := [], readQueue := [], callbacks := [] } 8 0

-- socketDidDisconnect drops the socket, and its delegate.
def socketDidDisconnect (join : JoinGame Object) : JoinGame Object :=
  { join with connected := false, received := [], readQueue := [], callbacks := [] }

section Reading

variable (archiver : KeyedArchiver Object) (order : ByteOrder)

def parseHeader (data : Bytes) : UInt64 := uint64Value order data

-- None is an exception of the unarchiver.
def parseBody (body : Bytes) : Option (Option (Packet Object)) :=
  (archiver.unarchive body).map fun found => found.map Packet.initWithCoder

-- An exception on the main queue ends the process, and the connection with it.
def didReadData (join : JoinGame Object) (data : Bytes) (tag : Int) : JoinGame Object :=
  if tag = 0 then readDataToLength join (parseHeader order data).toNat 1
  else if tag = 1 then
    match parseBody archiver data with
    | none => socketDidDisconnect join
    | some packet => readDataToLength { join with parsed := join.parsed ++ [packet] } 8 0
  else join

inductive JoinEvent where
  | connect
  | receive (chunk : Bytes)
  | completeRead
  | didRead
  | disconnect
deriving DecidableEq, Repr

-- A read completes with exactly the bytes it asked for, once they are there.
def joinStep (join : JoinGame Object) : JoinEvent → Option (JoinGame Object)
  | .connect => if join.connected then none else some (didConnectToHost join)
  | .receive chunk => if join.connected then some { join with received := join.received ++ chunk } else none
  | .completeRead =>
      match join.readQueue with
      | [] => none
      | request :: rest =>
          if request.length ≤ join.received.length then
            some { join with
              received := join.received.drop request.length
              readQueue := rest
              callbacks := join.callbacks ++ [(join.received.take request.length, request.tag)] }
          else none
  | .didRead =>
      match join.callbacks with
      | [] => none
      | (data, tag) :: rest => some (didReadData archiver order { join with callbacks := rest } data tag)
  | .disconnect => if join.connected then some (socketDidDisconnect join) else none

end Reading

-- The one read outstanding, queued or completed with its callback still to
-- run, and the bytes from the first it asks for on.
inductive Awaits (join : JoinGame Object) (request : ReadRequest) (pending : Bytes) : Prop where
  | queued (connected : join.connected = true) (queue : join.readQueue = [request]) (idle : join.callbacks = [])
      (arrived : join.received = pending)
  | completed (data : Bytes) (connected : join.connected = true) (queue : join.readQueue = [])
      (callback : join.callbacks = [(data, request.tag)]) (whole : data.length = request.length)
      (arrived : data ++ join.received = pending)

theorem awaits_connected (join : JoinGame Object) (request : ReadRequest) (pending : Bytes)
    (waiting : Awaits join request pending) : join.connected = true := by
  cases waiting with
  | queued connected => exact connected
  | completed data connected => exact connected

theorem awaits_receive (join : JoinGame Object) (request : ReadRequest) (pending chunk : Bytes)
    (waiting : Awaits join request pending) :
    Awaits { join with received := join.received ++ chunk } request (pending ++ chunk) := by
  cases waiting with
  | queued connected queue idle arrived => exact .queued connected queue idle (by rw [← arrived])
  | completed data connected queue callback whole arrived =>
      exact .completed data connected queue callback whole (by rw [← arrived, List.append_assoc])

theorem awaits_request (join : JoinGame Object) (length : Nat) (tag : Int) (connected : join.connected = true)
    (idle : join.callbacks = []) (queue : join.readQueue = []) (positive : length ≠ 0) :
    Awaits (readDataToLength join length tag) ⟨length, tag⟩ join.received := by
  rw [readDataToLength, if_neg positive]
  exact .queued connected (by rw [queue, List.nil_append]) idle rfl

variable (archiver : KeyedArchiver Object) (order : ByteOrder)

theorem awaits_complete_read (join next : JoinGame Object) (request : ReadRequest) (pending : Bytes)
    (waiting : Awaits join request pending) (taken : joinStep archiver order join .completeRead = some next) :
    Awaits next request pending ∧ next.parsed = join.parsed ∧
      next.callbacks.length = join.callbacks.length + 1 ∧
      next.received.length + request.length = join.received.length := by
  cases waiting with
  | queued connected queue idle arrived =>
      simp only [joinStep, queue] at taken
      split at taken
      · rename_i enough
        cases taken
        refine ⟨.completed (join.received.take request.length) connected rfl (by rw [idle, List.nil_append])
          (List.length_take_of_le enough) (arrived ▸ List.take_append_drop _ _), rfl, by simp, ?_⟩
        rw [List.length_drop, Nat.sub_add_cancel enough]
      · cases taken
  | completed data connected queue =>
      simp only [joinStep, queue] at taken
      cases taken

theorem awaits_did_read (join next : JoinGame Object) (request : ReadRequest) (pending : Bytes)
    (waiting : Awaits join request pending) (taken : joinStep archiver order join .didRead = some next) :
    ∃ data idle, pending = data ++ join.received ∧ data.length = request.length ∧
      join.callbacks = [(data, request.tag)] ∧ idle = { join with callbacks := [] } ∧ idle.readQueue = [] ∧
      next = didReadData archiver order idle data request.tag := by
  cases waiting with
  | queued connected queue idle =>
      simp only [joinStep, idle] at taken
      cases taken
  | completed data connected queue callback whole arrived =>
      simp only [joinStep, callback] at taken
      exact ⟨data, _, arrived.symm, whole, callback, rfl, queue, (Option.some.inj taken).symm⟩

end CultivationMotain.SocketGame

import CultivationMotain.SocketGame.PacketStream

set_option autoImplicit false

namespace CultivationMotain.SocketGame

variable {Object : Type}

def outstanding (join : JoinGame Object) : List Int :=
  join.callbacks.map Prod.snd ++ join.readQueue.map ReadRequest.tag

-- One read is outstanding after the event: a header's on connecting, the other
-- kind than before when a callback has run, the same otherwise.
def OneRead (join : JoinGame Object) (event : JoinEvent) (after : JoinGame Object) : Prop :=
  after.connected = true →
    match event with
    | .connect => outstanding after = [0]
    | .didRead => ∃ tag, outstanding join = [tag] ∧ outstanding after = [1 - tag]
    | _ => ∃ tag, outstanding join = [tag] ∧ outstanding after = [tag]

def Announces (order : ByteOrder) (join : JoinGame Object) (event : JoinEvent) (_ : JoinGame Object) : Prop :=
  event = .didRead → ∀ data rest, join.callbacks = (data, 0) :: rest → parseHeader order data ≠ 0

def Alternates (request : ReadRequest) : Prop := request = ⟨8, 0⟩ ∨ request.tag = 1 ∧ request.length ≠ 0

structure Reader (join : JoinGame Object) : Prop where
  waits : join.connected = true → ∃ request pending, Awaits join request pending ∧ Alternates request
  silent : join.connected = false → join.callbacks = [] ∧ join.readQueue = []

theorem awaits_outstanding (join : JoinGame Object) (request : ReadRequest) (pending : Bytes)
    (waiting : Awaits join request pending) : outstanding join = [request.tag] := by
  cases waiting with
  | queued connected queue idle => rw [outstanding, queue, idle]; rfl
  | completed data connected queue callback => rw [outstanding, queue, callback]; rfl

-- While the read's bytes are still to come, more of them can always arrive, and
-- once they are there the read and its callback run.
theorem awaits_progress (archiver : KeyedArchiver Object) (order : ByteOrder) (join : JoinGame Object)
    (request : ReadRequest) (pending : Bytes) (waiting : Awaits join request pending)
    (enough : request.length ≤ pending.length) :
    joinStep archiver order join .completeRead ≠ none ∨ joinStep archiver order join .didRead ≠ none := by
  cases waiting with
  | queued connected queue idle arrived =>
      left
      simp [joinStep, queue, arrived, enough]
  | completed data connected queue callback =>
      right
      simp [joinStep, callback]

theorem unconnected_reader : Reader (JoinGame.unconnected : JoinGame Object) :=
  ⟨fun connected => absurd connected Bool.false_ne_true, fun _ => ⟨rfl, rfl⟩⟩

theorem disconnected_reader (join : JoinGame Object) : Reader (socketDidDisconnect join) :=
  ⟨fun connected => absurd connected Bool.false_ne_true, fun _ => ⟨rfl, rfl⟩⟩

theorem awaits_reader (join : JoinGame Object) (request : ReadRequest) (pending : Bytes)
    (waiting : Awaits join request pending) (alternates : Alternates request) : Reader join := by
  have connected := awaits_connected join request pending waiting
  exact ⟨fun _ => ⟨request, pending, waiting, alternates⟩,
    fun disconnected => absurd (connected.symm.trans disconnected) Bool.true_eq_false.mp⟩

theorem connect_awaits (join : JoinGame Object) : Awaits (didConnectToHost join) ⟨8, 0⟩ [] :=
  awaits_request _ 8 0 rfl rfl rfl (Nat.succ_ne_zero 7)

section Steps

variable (archiver : KeyedArchiver Object) (order : ByteOrder)

theorem header_read (idle : JoinGame Object) (data : Bytes) (connected : idle.connected = true)
    (quiet : idle.callbacks = []) (queue : idle.readQueue = []) :
    (parseHeader order data ≠ 0 →
      Awaits (didReadData archiver order idle data 0) ⟨(parseHeader order data).toNat, 1⟩ idle.received) ∧
    (parseHeader order data = 0 → didReadData archiver order idle data 0 = idle) := by
  rw [didReadData, if_pos rfl]
  constructor
  · intro announced
    refine awaits_request idle _ 1 connected quiet queue fun zero => announced ?_
    exact UInt64.toNat_inj.mp zero
  · intro nothing
    rw [nothing]
    rfl

theorem body_read (idle : JoinGame Object) (data : Bytes) (connected : idle.connected = true)
    (quiet : idle.callbacks = []) (queue : idle.readQueue = []) :
    didReadData archiver order idle data 1 = socketDidDisconnect idle ∨
      Awaits (didReadData archiver order idle data 1) ⟨8, 0⟩ idle.received := by
  rw [didReadData, if_neg Int.one_ne_zero, if_pos rfl]
  cases parseBody archiver data with
  | none => exact .inl rfl
  | some packet => exact .inr (awaits_request _ 8 0 connected quiet queue (Nat.succ_ne_zero 7))

theorem did_read_step (join after : JoinGame Object) (request : ReadRequest) (pending : Bytes)
    (waiting : Awaits join request pending) (alternates : Alternates request)
    (taken : joinStep archiver order join .didRead = some after) :
    (Announces order join .didRead after → Reader after ∧ OneRead join .didRead after) ∧
      (¬ Announces order join .didRead after → after.connected = true ∧ outstanding after = []) := by
  have before := awaits_outstanding join request pending waiting
  obtain ⟨data, idle, stream, whole, callback, same, queue, called⟩ :=
    awaits_did_read archiver order join after request pending waiting taken
  have connected : idle.connected = true := by
    rw [same]
    exact awaits_connected join request pending waiting
  have quiet : idle.callbacks = [] := by rw [same]
  cases alternates with
  | inl header =>
      subst header
      obtain ⟨announced, nothing⟩ := header_read archiver order idle data connected quiet queue
      constructor
      · intro announces
        have waits := announced (announces rfl data [] callback)
        rw [← called] at waits
        have positive : (parseHeader order data).toNat ≠ 0 := fun zero =>
          announces rfl data [] callback (UInt64.toNat_inj.mp zero)
        exact ⟨awaits_reader after _ _ waits (.inr ⟨rfl, positive⟩),
          fun _ => ⟨0, before, awaits_outstanding after _ _ waits⟩⟩
      · intro silent
        have zero : parseHeader order data = 0 := by
          by_contra announced
          refine silent fun _ other rest found => ?_
          cases callback.symm.trans found
          exact announced
        rw [called, nothing zero]
        exact ⟨connected, by rw [outstanding, quiet, queue]; rfl⟩
  | inr body =>
      rw [body.1] at callback called before
      constructor
      · intro _
        cases body_read archiver order idle data connected quiet queue with
        | inl ended =>
            rw [called, ended]
            exact ⟨disconnected_reader idle, fun connected => absurd connected Bool.false_ne_true⟩
        | inr waits =>
            rw [← called] at waits
            exact ⟨awaits_reader after _ _ waits (.inl rfl), fun _ => ⟨1, before, awaits_outstanding after _ _ waits⟩⟩
      · intro silent
        refine (silent fun _ other rest found => ?_).elim
        cases callback.symm.trans found

theorem other_step (join after : JoinGame Object) (event : JoinEvent) (reader : Reader join)
    (other : event ≠ .didRead) (taken : joinStep archiver order join event = some after) :
    Reader after ∧ OneRead join event after := by
  cases event with
  | connect =>
      simp only [joinStep] at taken
      split at taken
      · cases taken
      · cases taken
        have waits := connect_awaits join
        exact ⟨awaits_reader _ _ _ waits (.inl rfl), fun _ => awaits_outstanding _ _ _ waits⟩
  | receive chunk =>
      simp only [joinStep] at taken
      split at taken
      · rename_i connected
        cases taken
        obtain ⟨request, pending, waiting, alternates⟩ := reader.waits connected
        have waits := awaits_receive join request pending chunk waiting
        exact ⟨awaits_reader _ _ _ waits alternates,
          fun _ => ⟨request.tag, awaits_outstanding join _ _ waiting, awaits_outstanding _ _ _ waits⟩⟩
      · cases taken
  | completeRead =>
      by_cases connected : join.connected = true
      · obtain ⟨request, pending, waiting, alternates⟩ := reader.waits connected
        have waits := (awaits_complete_read archiver order join after request pending waiting taken).1
        exact ⟨awaits_reader _ _ _ waits alternates,
          fun _ => ⟨request.tag, awaits_outstanding join _ _ waiting, awaits_outstanding _ _ _ waits⟩⟩
      · simp only [joinStep, (reader.silent (Bool.eq_false_iff.mpr connected)).2] at taken
        cases taken
  | didRead => exact absurd rfl other
  | disconnect =>
      simp only [joinStep] at taken
      split at taken
      · cases taken
        exact ⟨disconnected_reader join, fun connected => absurd connected Bool.false_ne_true⟩
      · cases taken

theorem reader_step (join after : JoinGame Object) (event : JoinEvent) (reader : Reader join)
    (taken : joinStep archiver order join event = some after) :
    (Announces order join event after → Reader after ∧ OneRead join event after) ∧
      (¬ Announces order join event after → ¬ OneRead join event after) := by
  by_cases called : event = .didRead
  · subst called
    have connected : join.connected = true := by
      by_contra disconnected
      simp only [joinStep, (reader.silent (Bool.eq_false_iff.mpr disconnected)).1] at taken
      cases taken
    obtain ⟨request, pending, waiting, alternates⟩ := reader.waits connected
    obtain ⟨kept, stalls⟩ := did_read_step archiver order join after request pending waiting alternates taken
    refine ⟨kept, fun silent one => ?_⟩
    obtain ⟨still, empty⟩ := stalls silent
    obtain ⟨tag, before, outstands⟩ := one still
    cases empty.symm.trans outstands
  · obtain ⟨kept, one⟩ := other_step archiver order join after event reader called taken
    exact ⟨fun _ => ⟨kept, one⟩, fun silent => absurd (fun same => absurd same called) silent⟩

-- In every run one read is outstanding whenever the socket is connected,
-- exactly when no callback is given a header that announces nothing; the read
-- that is outstanding then goes on as soon as its bytes have arrived.
theorem reader_never_stalls_iff (events : List JoinEvent) :
    (Runs.Steps (joinStep archiver order) OneRead (JoinGame.unconnected : JoinGame Object) events ↔
        Runs.Steps (joinStep archiver order) (Announces order) (JoinGame.unconnected : JoinGame Object) events) ∧
      (Runs.Steps (joinStep archiver order) (Announces order) (JoinGame.unconnected : JoinGame Object) events →
        ∀ final, Runs.run (joinStep archiver order) (JoinGame.unconnected : JoinGame Object) events = some final →
          final.connected = true → ∃ request pending, Awaits final request pending ∧
            (request.length ≤ pending.length →
              joinStep archiver order final .completeRead ≠ none ∨ joinStep archiver order final .didRead ≠ none)) := by
  constructor
  · refine Runs.steps_iff (joinStep archiver order) Reader OneRead (Announces order) ?_ ?_ JoinGame.unconnected events
      unconnected_reader
    · intro join event after reader taken
      obtain ⟨kept, stalls⟩ := reader_step archiver order join after event reader taken
      exact ⟨fun one => by_contra fun silent => stalls silent one, fun announces => (kept announces).2⟩
    · intro join event after reader taken one
      obtain ⟨kept, stalls⟩ := reader_step archiver order join after event reader taken
      exact (kept (by_contra fun silent => stalls silent one)).1
  · intro announces final ran connected
    have reader : Reader final := Runs.run_of_condition (joinStep archiver order) Reader (Announces order)
      (fun join event after reader taken announced => ((reader_step archiver order join after event reader taken).1
        announced).1)
      JoinGame.unconnected final events announces ran unconnected_reader
    obtain ⟨request, pending, waiting, -⟩ := reader.waits connected
    exact ⟨request, pending, waiting, awaits_progress archiver order final request pending waiting⟩

end Steps

-- Eight zero bytes: the request for the body is ignored, and nothing more is
-- read however much arrives.
def zeroHeader : List JoinEvent :=
  [.connect, .receive [0, 0, 0, 0, 0, 0, 0, 0], .completeRead, .didRead]

def stalled : JoinGame UInt8 := ⟨true, [], [], [], []⟩

theorem reader_stalls_zero_header :
    Runs.run (joinStep sampleArchiver .littleEndian) JoinGame.unconnected zeroHeader = some stalled ∧
      stalled.connected = true ∧ outstanding stalled = [] ∧
      ¬ Runs.Steps (joinStep sampleArchiver .littleEndian) OneRead JoinGame.unconnected zeroHeader := by
  refine ⟨rfl, rfl, rfl, fun all => ?_⟩
  have last := Runs.steps_after (joinStep sampleArchiver .littleEndian) OneRead JoinGame.unconnected
    ⟨true, [], [], [([0, 0, 0, 0, 0, 0, 0, 0], 0)], []⟩ (zeroHeader.take 3) [.didRead] rfl all
  obtain ⟨tag, before, after⟩ := (last stalled rfl).1 rfl
  cases after

end CultivationMotain.SocketGame

import CultivationMotain.HalfTunes.DownloadObjects

set_option autoImplicit false

namespace CultivationMotain.HalfTunes

open Foundation ObjectHeap Runs

-- A pause of a Download is named by the task it stops: a task is paused once.
structure Delivery where
  pause : Ref
  produced : Bool

-- A task that was started from resume data, and the latest pause of its Download
-- at that time.
structure Resumption where
  data : ResumeData
  latestPause : Option Ref

-- The state with a record of what has happened to each Download: its latest
-- pause and the completion handler of a pause that ran last.
structure History where
  state : State
  latestPause : Ref → Option Ref
  lastDelivery : Ref → Option Delivery
  resumptions : List Resumption

def launchedHistory : History := ⟨initial, fun _ => none, fun _ => none, []⟩

section Recording

variable (catalogue : TrackRef → Track)

-- The Download that a pause stops, with its task.
def pausedTask (s : State) (track : TrackRef) : Option (Ref × Ref) := do
  let ref ← s.activeDownloads (catalogue track).previewURL
  let download ← read s.downloads ref
  if download.isDownloading then download.dataTask.map (Prod.mk ref) else none

-- The Download that a resume finds, with the data it gives to the new task.
def resumedData (s : State) (track : TrackRef) : Option (Ref × ResumeData) := do
  let ref ← s.activeDownloads (catalogue track).previewURL
  let download ← read s.downloads ref
  download.resumeData.map (Prod.mk ref)

def record (history : History) : Event → History
  | .pause track =>
      match pausedTask catalogue history.state track with
      | none => history
      | some (ref, task) => { history with latestPause := Function.update history.latestPause ref (some task) }
  | .resume track =>
      match resumedData catalogue history.state track with
      | none => history
      | some (ref, data) =>
          { history with resumptions := history.resumptions ++ [⟨data, history.latestPause ref⟩] }
  | .resumeData position produced =>
      match history.state.resumeCallbacks[position]? with
      | none => history
      | some (ref, task) =>
          { history with lastDelivery := Function.update history.lastDelivery ref (some ⟨task, produced⟩) }
  | _ => history

def recordedStep (documentsPath : URL) (history : History) (event : Event) : Option History :=
  (step catalogue documentsPath history.state event).map fun next =>
    { record catalogue history event with state := next }

end Recording

def ResumesLatest (history : History) : Prop :=
  ∀ resumption ∈ history.resumptions, resumption.latestPause = some resumption.data.task

-- When a download is resumed, the handler that ran last of its pauses' handlers,
-- if it brought data, is the latest pause's.
def InStep (catalogue : TrackRef → Track) (before : History) : Event → Prop
  | .resume track => ∀ ref pause, before.state.activeDownloads (catalogue track).previewURL = some ref →
      before.lastDelivery ref = some ⟨pause, true⟩ → before.latestPause ref = some pause
  | _ => True

def brought (delivery : Option Delivery) : Option Ref :=
  delivery.bind fun last => if last.produced then some last.pause else none

def heldData (s : State) (ref : Ref) : Option Ref :=
  ((read s.downloads ref).bind Download.resumeData).map ResumeData.task

structure Recorded (catalogue : TrackRef → Track) (history : History) : Prop where
  wellFormed : WellFormed catalogue history.state
  held : ∀ ref, heldData history.state ref = brought (history.lastDelivery ref)
  latest : ResumesLatest history

variable (catalogue : TrackRef → Track)

theorem held_update (downloads : Heap Download) (ref other : Ref) (change : Download → Download)
    (kept : ∀ download, (change download).resumeData = download.resumeData) :
    ((read (update downloads ref change) other).bind Download.resumeData).map ResumeData.task =
      ((read downloads other).bind Download.resumeData).map ResumeData.task := by
  rw [read_update]
  by_cases same : other = ref
  · rw [if_pos same]
    cases read downloads other with
    | none => rfl
    | some download => simp only [Option.map_some, Option.bind_some, kept]
  · rw [if_neg same]

theorem start_held (s : State) (track : TrackRef) (ref : Ref) :
    heldData (startDownload catalogue s track) ref = heldData s ref := by
  unfold heldData startDownload
  dsimp only
  rw [read_alloc]
  by_cases new : ref = fresh s.downloads
  · rw [if_pos new, new, read_fresh]
    rfl
  · rw [if_neg new]

theorem pause_held (s : State) (track : TrackRef) (other : Ref) (wellFormed : WellFormed catalogue s) :
    heldData (pauseDownload catalogue s track) other = heldData s other := by
  cases active : s.activeDownloads (catalogue track).previewURL with
  | none => rw [(no_entry catalogue s track active).1]
  | some ref =>
      obtain ⟨download, task, _, present, _, tasked, _⟩ := active_entry catalogue s _ ref wellFormed active
      rw [pause_entry catalogue s track ref task download active present tasked]
      by_cases downloading : download.isDownloading = true
      · rw [if_pos downloading]
        exact held_update s.downloads ref other _ fun _ => rfl
      · rw [if_neg downloading]

theorem resume_held (s : State) (track : TrackRef) (other : Ref) (wellFormed : WellFormed catalogue s) :
    heldData (resumeDownload catalogue s track) other = heldData s other := by
  cases active : s.activeDownloads (catalogue track).previewURL with
  | none => rw [(no_entry catalogue s track active).2.2]
  | some ref =>
      obtain ⟨download, _, _, present, _⟩ := active_entry catalogue s _ ref wellFormed active
      rw [resume_entry catalogue s track ref download wellFormed active present]
      exact held_update s.downloads ref other _ fun _ => rfl

theorem cancel_held (s : State) (track : TrackRef) (other : Ref) (wellFormed : WellFormed catalogue s) :
    heldData (cancelDownload catalogue s track) other = heldData s other := by
  cases active : s.activeDownloads (catalogue track).previewURL with
  | none => rw [(no_entry catalogue s track active).2.1]
  | some ref =>
      obtain ⟨download, task, _, present, _, tasked, _⟩ := active_entry catalogue s _ ref wellFormed active
      rw [cancel_entry catalogue s track ref task download active present tasked]
      rfl

theorem receive_held (s : State) (position : Nat) (produced : Bool) (ref task other : Ref)
    (wellFormed : WellFormed catalogue s) (waiting : s.resumeCallbacks[position]? = some (ref, task)) :
    heldData (receiveResumeData s position produced) other =
      if other = ref then brought (some ⟨task, produced⟩) else heldData s other := by
  obtain ⟨url, captured, paused⟩ := wellFormed.callbacks ref task (List.mem_of_getElem? waiting)
  obtain ⟨download, present, _⟩ := Option.map_eq_some_iff.mp captured
  obtain ⟨stopped, held, _⟩ := Option.map_eq_some_iff.mp paused
  simp only [heldData, receiveResumeData, waiting, held, read_update]
  by_cases same : other = ref
  · rw [if_pos same, if_pos same, same, present]
    cases produced <;> rfl
  · rw [if_neg same, if_neg same]

theorem receive_recorded (history : History) (position : Nat) (produced : Bool)
    (recorded : Recorded catalogue history) (other : Ref) :
    heldData (receiveResumeData history.state position produced) other =
      brought ((record catalogue history (.resumeData position produced)).lastDelivery other) := by
  cases waiting : history.state.resumeCallbacks[position]? with
  | none =>
      simp only [receiveResumeData, record, waiting]
      exact recorded.held other
  | some callback =>
      obtain ⟨ref, task⟩ := callback
      rw [receive_held catalogue history.state position produced ref task other recorded.wellFormed waiting]
      simp only [record, waiting, Function.update_apply]
      by_cases same : other = ref
      · rw [if_pos same, if_pos same]
      · rw [if_neg same, if_neg same]
        exact recorded.held other

theorem pause_recorded (history : History) (track : TrackRef) :
    (record catalogue history (.pause track)).lastDelivery = history.lastDelivery ∧
      (record catalogue history (.pause track)).resumptions = history.resumptions := by
  simp only [record]
  cases pausedTask catalogue history.state track with
  | none => exact ⟨rfl, rfl⟩
  | some stopped => exact ⟨rfl, rfl⟩

theorem resume_recorded (history : History) (track : TrackRef) :
    (record catalogue history (.resume track)).lastDelivery = history.lastDelivery := by
  simp only [record]
  cases resumedData catalogue history.state track with
  | none => rfl
  | some resumed => rfl

theorem delivery_recorded (history : History) (position : Nat) (produced : Bool) :
    (record catalogue history (.resumeData position produced)).resumptions = history.resumptions := by
  simp only [record]
  cases history.state.resumeCallbacks[position]? with
  | none => rfl
  | some callback => rfl

-- Only a handler that runs changes what a Download holds, and the record of it.
theorem step_held (documentsPath : URL) (history : History) (event : Event) (next : State)
    (recorded : Recorded catalogue history) (taken : step catalogue documentsPath history.state event = some next)
    (ref : Ref) : heldData next ref = brought ((record catalogue history event).lastDelivery ref) := by
  cases event with
  | start track =>
      obtain rfl := Option.some.inj taken
      exact (start_held catalogue history.state track ref).trans (recorded.held ref)
  | pause track =>
      obtain rfl := Option.some.inj taken
      rw [(pause_recorded catalogue history track).1]
      exact (pause_held catalogue history.state track ref recorded.wellFormed).trans (recorded.held ref)
  | resume track =>
      obtain rfl := Option.some.inj taken
      rw [resume_recorded]
      exact (resume_held catalogue history.state track ref recorded.wellFormed).trans (recorded.held ref)
  | cancel track =>
      obtain rfl := Option.some.inj taken
      exact (cancel_held catalogue history.state track ref recorded.wellFormed).trans (recorded.held ref)
  | resumeData position produced =>
      obtain rfl := Option.some.inj taken
      exact receive_recorded catalogue history position produced recorded ref
  | transfer task =>
      obtain ⟨_, _, rfl⟩ := transfer_running catalogue documentsPath history.state next task taken
      exact recorded.held ref
  | finish task finish =>
      obtain ⟨_, _, rfl⟩ := finish_finishing catalogue documentsPath history.state next task finish taken
      exact recorded.held ref

theorem resumed_held (s : State) (track : TrackRef) (ref : Ref) (data : ResumeData)
    (resumed : resumedData catalogue s track = some (ref, data)) :
    s.activeDownloads (catalogue track).previewURL = some ref ∧ heldData s ref = some data.task := by
  obtain ⟨found, active, resumed⟩ := Option.bind_eq_some_iff.mp resumed
  obtain ⟨download, present, resumed⟩ := Option.bind_eq_some_iff.mp resumed
  obtain ⟨held, given, same⟩ := Option.map_eq_some_iff.mp resumed
  cases same
  exact ⟨active, by rw [heldData, present, Option.bind_some, given, Option.map_some]⟩

theorem not_resumed (s : State) (track : TrackRef) (ref : Ref) (idle : resumedData catalogue s track = none)
    (active : s.activeDownloads (catalogue track).previewURL = some ref) : heldData s ref = none := by
  unfold resumedData at idle
  rw [active] at idle
  unfold heldData
  cases present : read s.downloads ref with
  | none => rfl
  | some download =>
      cases held : download.resumeData with
      | none => rw [Option.bind_some, held, Option.map_none]
      | some data => simp [present, held] at idle

theorem brought_iff (delivery : Option Delivery) (pause : Ref) :
    brought delivery = some pause ↔ delivery = some ⟨pause, true⟩ := by
  unfold brought
  cases delivery with
  | none => exact iff_of_false nofun nofun
  | some last =>
      obtain ⟨task, produced⟩ := last
      cases produced with
      | false => exact iff_of_false nofun nofun
      | true => simp

theorem resume_latest_iff (history : History) (track : TrackRef) (recorded : Recorded catalogue history) :
    ResumesLatest (record catalogue history (.resume track)) ↔ InStep catalogue history (.resume track) := by
  cases resumed : resumedData catalogue history.state track with
  | none =>
      simp only [record, resumed]
      refine iff_of_true recorded.latest fun ref pause active delivered => ?_
      have empty := not_resumed catalogue history.state track ref resumed active
      rw [recorded.held ref, (brought_iff _ pause).mpr delivered] at empty
      cases empty
  | some found =>
      obtain ⟨ref, data⟩ := found
      obtain ⟨active, held⟩ := resumed_held catalogue history.state track ref data resumed
      have delivered := (brought_iff _ data.task).mp ((recorded.held ref).symm.trans held)
      simp only [record, resumed]
      constructor
      · intro latest other pause found same
        obtain rfl := Option.some.inj (active.symm.trans found)
        cases delivered.symm.trans same
        exact latest ⟨data, history.latestPause ref⟩ (List.mem_append_right _ List.mem_cons_self)
      · intro inStep resumption member
        rcases List.mem_append.mp member with old | new
        · exact recorded.latest resumption old
        · obtain rfl := List.mem_singleton.mp new
          exact inStep ref data.task active delivered

theorem recorded_step_iff (documentsPath : URL) (history : History) (event : Event) (next : History)
    (recorded : Recorded catalogue history) (taken : recordedStep catalogue documentsPath history event = some next) :
    ResumesLatest next ↔ InStep catalogue history event := by
  obtain ⟨state, _, rfl⟩ := Option.map_eq_some_iff.mp taken
  cases event with
  | resume track => exact resume_latest_iff catalogue history track recorded
  | pause track =>
      unfold ResumesLatest
      rw [(pause_recorded catalogue history track).2]
      exact iff_of_true recorded.latest trivial
  | resumeData position produced =>
      unfold ResumesLatest
      rw [delivery_recorded]
      exact iff_of_true recorded.latest trivial
  | start track => exact iff_of_true recorded.latest trivial
  | cancel track => exact iff_of_true recorded.latest trivial
  | transfer task => exact iff_of_true recorded.latest trivial
  | finish task finish => exact iff_of_true recorded.latest trivial

theorem recorded_step_keeps (documentsPath : URL) (history : History) (event : Event) (next : History)
    (recorded : Recorded catalogue history) (taken : recordedStep catalogue documentsPath history event = some next)
    (latest : ResumesLatest next) : Recorded catalogue next := by
  obtain ⟨state, stepped, rfl⟩ := Option.map_eq_some_iff.mp taken
  exact ⟨step_well_formed catalogue documentsPath history.state event state recorded.wellFormed stepped,
    step_held catalogue documentsPath history event state recorded stepped, latest⟩

theorem launch_recorded : Recorded catalogue launchedHistory where
  wellFormed := initial_well_formed catalogue
  held _ := rfl
  latest := by simp [ResumesLatest, launchedHistory]

-- In every run no task is started from data of an earlier pause, exactly when
-- the data that has come last at a resume is the latest pause's.
theorem resumed_data_iff (documentsPath : URL) (events : List Event) :
    Steps (recordedStep catalogue documentsPath) (fun _ _ next => ResumesLatest next) launchedHistory events ↔
      Steps (recordedStep catalogue documentsPath) (fun before event _ => InStep catalogue before event) launchedHistory
        events :=
  steps_iff (recordedStep catalogue documentsPath) (Recorded catalogue) _ _
    (recorded_step_iff catalogue documentsPath) (recorded_step_keeps catalogue documentsPath) launchedHistory events
    (launch_recorded catalogue)

-- The second pause's data has not come when the second resume takes the first's.
theorem second_resume_stale :
    ¬ ∀ events, Steps (recordedStep (fun _ => sampleTrack) ⟨"file:///", ["Documents"]⟩)
      (fun _ _ next => ResumesLatest next) launchedHistory events := by
  intro all
  have last := steps_after _ _ launchedHistory _ [.start 0, .pause 0, .resumeData 0 true, .resume 0, .pause 0]
    [.resume 0] rfl (all _)
  obtain ⟨latest, _⟩ := last _ rfl
  have same := latest _ (List.mem_append_right _ List.mem_cons_self)
  exact absurd same (by decide)

end CultivationMotain.HalfTunes

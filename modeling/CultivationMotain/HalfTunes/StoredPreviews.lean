import CultivationMotain.HalfTunes.DownloadObjects

set_option autoImplicit false

namespace CultivationMotain.HalfTunes

open Foundation ObjectHeap Runs

section Paths

variable (documentsPath : URL)

theorem local_file_path_injective (a b : URL) (same : localFilePath documentsPath a = localFilePath documentsPath b) :
    a.lastPathComponent = b.lastPathComponent :=
  appending_injective documentsPath _ _ same

theorem local_file_path_ne (a b : URL) (different : a.lastPathComponent ≠ b.lastPathComponent) :
    localFilePath documentsPath a ≠ localFilePath documentsPath b :=
  fun same => different (local_file_path_injective documentsPath a b same)

end Paths

-- The copy at the end of a download goes through: the old file could be
-- removed, or there was none.
def Stores (s : State) (destination : URL) (finish : Finish) : Prop :=
  finish.copies = true ∧ (finish.removes = true ∨ s.files destination = none)

theorem store_file_cases (files : URL → Option Bytes) (destination : URL) (finish : Finish) :
    storeFile files destination finish =
      let removed := if finish.removes then Function.update files destination none else files
      if finish.copies = true ∧ (finish.removes = true ∨ files destination = none) then
        (Function.update removed destination (some finish.bytes), true)
      else (removed, false) := by
  unfold storeFile
  cases finish.removes with
  | true => simp
  | false => simp

theorem store_file_stores (s : State) (destination : URL) (finish : Finish) :
    (storeFile s.files destination finish).2 = true ↔ Stores s destination finish := by
  rw [store_file_cases, Stores]
  dsimp only
  split
  · rename_i stores
    exact ⟨fun _ => stores, fun _ => rfl⟩
  · rename_i fails
    exact ⟨fun copied => (nomatch copied), fun stores => absurd stores fails⟩

theorem store_file_stored (files : URL → Option Bytes) (destination : URL) (finish : Finish)
    (stored : (storeFile files destination finish).2 = true) :
    (storeFile files destination finish).1 destination = some finish.bytes := by
  rw [store_file_cases] at stored ⊢
  dsimp only at stored ⊢
  split
  · exact Function.update_self (β := fun _ => Option Bytes) ..
  · rename_i failed
    rw [if_neg failed] at stored
    cases stored

theorem store_file_elsewhere (files : URL → Option Bytes) (destination other : URL) (finish : Finish)
    (different : other ≠ destination) : (storeFile files destination finish).1 other = files other := by
  have removed : (if finish.removes then Function.update files destination none else files) other = files other := by
    split
    · exact Function.update_of_ne (β := fun _ => Option Bytes) different ..
    · rfl
  rw [store_file_cases]
  dsimp only
  split
  · exact (Function.update_of_ne (β := fun _ => Option Bytes) different ..).trans removed
  · exact removed

variable (catalogue : TrackRef → Track) (documentsPath : URL)

-- Whenever a track is marked as downloaded, the file playDownload opens for it
-- holds what the last finished download of its preview URL brought.
def PreviewsStored (s : State) : Prop :=
  ∀ track, s.downloaded track = true → ∃ bytes, s.received (catalogue track).previewURL = some bytes ∧
    s.files (localFilePath documentsPath (catalogue track).previewURL) = some bytes

-- A finish that marks a track, or concerns one already marked, is stored, under
-- a temporary name that is the last component of the preview URL; and no track
-- marked for another URL has that last component.
def FiledUnder (s : State) : Event → Prop
  | .finish task finish => ∀ url state, read s.tasks task = some ⟨url, state⟩ →
      ((Stores s (localFilePath documentsPath finish.location) finish ∧ s.activeDownloads url ≠ none) ∨
          (∃ track, s.downloaded track = true ∧ (catalogue track).previewURL = url) →
        Stores s (localFilePath documentsPath finish.location) finish ∧
          finish.location.lastPathComponent = url.lastPathComponent) ∧
      ∀ track, s.downloaded track = true → (catalogue track).previewURL ≠ url →
        (catalogue track).previewURL.lastPathComponent ≠ finish.location.lastPathComponent
  | _ => True

theorem finish_marks (s : State) (task : Ref) (url : URL) (finish : Finish) (track : TrackRef)
    (wellFormed : WellFormed catalogue s)
    (marked : (didFinishDownloading catalogue documentsPath s task url finish).downloaded track = true) :
    s.downloaded track = true ∨
      (Stores s (localFilePath documentsPath finish.location) finish ∧ s.activeDownloads url ≠ none ∧
        (catalogue track).previewURL = url) := by
  cases active : s.activeDownloads url with
  | none =>
      simp only [didFinishDownloading, active, Option.bind_none] at marked
      exact .inl marked
  | some ref =>
      obtain ⟨download, _, _, present, same, _⟩ := active_entry catalogue s url ref wellFormed active
      simp only [didFinishDownloading, active, Option.bind_some, present] at marked
      split at marked
      · rename_i copied
        by_cases own : track = download.track
        · subst own
          exact .inr ⟨(store_file_stores s _ finish).mp copied, by simp, same⟩
        · rw [Function.update_of_ne own] at marked
          exact .inl marked
      · exact .inl marked

theorem finish_previews (s : State) (task : Ref) (url : URL) (state : TaskState) (finish : Finish)
    (wellFormed : WellFormed catalogue s) (stored : PreviewsStored catalogue documentsPath s)
    (held : read s.tasks task = some ⟨url, state⟩)
    (filed : FiledUnder catalogue documentsPath s (.finish task finish)) :
    PreviewsStored catalogue documentsPath (didFinishDownloading catalogue documentsPath s task url finish) := by
  obtain ⟨own, others⟩ := filed url state held
  intro track marked
  by_cases same : (catalogue track).previewURL = url
  · -- The file of this URL is the one just stored.
    have concerned : (Stores s (localFilePath documentsPath finish.location) finish ∧ s.activeDownloads url ≠ none) ∨
        ∃ track, s.downloaded track = true ∧ (catalogue track).previewURL = url := by
      rcases finish_marks catalogue documentsPath s task url finish track wellFormed marked with old | ⟨new, entry, _⟩
      · exact .inr ⟨track, old, same⟩
      · exact .inl ⟨new, entry⟩
    obtain ⟨stores, named⟩ := own concerned
    have path : localFilePath documentsPath (catalogue track).previewURL =
        localFilePath documentsPath finish.location := by
      rw [same, localFilePath, localFilePath, named]
    refine ⟨finish.bytes, ?_, ?_⟩
    · rw [same]
      exact Function.update_self ..
    · rw [path]
      exact store_file_stored s.files _ finish ((store_file_stores s _ finish).mpr stores)
  · -- Any other marked track was marked before and its file is not touched.
    have old : s.downloaded track = true := by
      rcases finish_marks catalogue documentsPath s task url finish track wellFormed marked with old | ⟨_, _, equal⟩
      · exact old
      · exact absurd equal same
    obtain ⟨bytes, brought, kept⟩ := stored track old
    have apart := local_file_path_ne documentsPath _ _ (others track old same)
    refine ⟨bytes, ?_, ?_⟩
    · exact (Function.update_of_ne same _ _).trans brought
    · exact (store_file_elsewhere s.files _ _ finish apart).trans kept

theorem step_frame (s : State) (event : Event) (next : State)
    (taken : step catalogue documentsPath s event = some next) (other : ∀ task finish, event ≠ .finish task finish) :
    next.downloaded = s.downloaded ∧ next.files = s.files ∧ next.received = s.received := by
  cases event with
  | start track => exact Option.some.inj taken ▸ ⟨rfl, rfl, rfl⟩
  | pause track =>
      obtain rfl := Option.some.inj taken
      unfold pauseDownload
      split
      · exact ⟨rfl, rfl, rfl⟩
      · split
        · dsimp only
          split <;> exact ⟨rfl, rfl, rfl⟩
        · exact ⟨rfl, rfl, rfl⟩
  | resume track =>
      obtain rfl := Option.some.inj taken
      unfold resumeDownload
      dsimp only
      split
      · exact ⟨rfl, rfl, rfl⟩
      · split <;> exact ⟨rfl, rfl, rfl⟩
  | cancel track =>
      obtain rfl := Option.some.inj taken
      unfold cancelDownload
      dsimp only
      split <;> exact ⟨rfl, rfl, rfl⟩
  | resumeData position produced =>
      obtain rfl := Option.some.inj taken
      unfold receiveResumeData
      split <;> exact ⟨rfl, rfl, rfl⟩
  | transfer task =>
      obtain ⟨_, _, rfl⟩ := transfer_running catalogue documentsPath s next task taken
      exact ⟨rfl, rfl, rfl⟩
  | finish task finish => exact absurd rfl (other task finish)

theorem step_previews (s : State) (event : Event) (next : State)
    (inv : WellFormed catalogue s ∧ PreviewsStored catalogue documentsPath s)
    (taken : step catalogue documentsPath s event = some next) (filed : FiledUnder catalogue documentsPath s event) :
    PreviewsStored catalogue documentsPath next := by
  by_cases finishes : ∃ task finish, event = .finish task finish
  · obtain ⟨task, finish, rfl⟩ := finishes
    obtain ⟨url, held, rfl⟩ := finish_finishing catalogue documentsPath s next task finish taken
    exact finish_previews catalogue documentsPath s task url .finishing finish inv.1 inv.2 held filed
  · obtain ⟨marks, files, brought⟩ := step_frame catalogue documentsPath s event next taken
      fun task finish same => finishes ⟨task, finish, same⟩
    intro track marked
    rw [marks] at marked
    rw [files, brought]
    exact inv.2 track marked

theorem previews_stored (events : List Event)
    (filed : Steps (step catalogue documentsPath)
      (fun before event _ => FiledUnder catalogue documentsPath before event) initial events) :
    Steps (step catalogue documentsPath) (fun _ _ next => PreviewsStored catalogue documentsPath next) initial events :=
  steps_of_condition (step catalogue documentsPath)
    (fun s => WellFormed catalogue s ∧ PreviewsStored catalogue documentsPath s) _ _
    (fun s event next inv taken allowed =>
      have after := step_previews catalogue documentsPath s event next inv taken allowed
      ⟨after, step_well_formed catalogue documentsPath s event next inv.1 taken, after⟩)
    initial events ⟨initial_well_formed catalogue, fun _ marked => (nomatch marked)⟩ filed

def sampleDocuments : URL := ⟨"file:///", ["Documents"]⟩

def sampleFinish (name : String) : Finish := ⟨⟨"file:///", ["tmp", name]⟩, [0x49, 0x44, 0x33], true, true⟩

theorem previews_stored_under_own_name :
    Steps (step (fun _ => sampleTrack) sampleDocuments)
      (fun _ _ next => PreviewsStored (fun _ => sampleTrack) sampleDocuments next)
      initial [.start 0, .transfer 0, .finish 0 (sampleFinish "song.m4a")] := by
  refine previews_stored (fun _ => sampleTrack) sampleDocuments _ ?_
  intro started begun
  cases Option.some.inj begun
  refine ⟨trivial, ?_⟩
  intro transferred queued
  cases Option.some.inj queued
  refine ⟨trivial, ?_⟩
  intro next _
  refine ⟨?_, trivial⟩
  intro url state held
  cases Option.some.inj held
  exact ⟨fun _ => ⟨⟨rfl, .inl rfl⟩, rfl⟩, fun _ marked => (nomatch marked)⟩

-- The file is named after the temporary location, which has a name of its own:
-- the track is marked and there is nothing at the path that is played.
theorem temporary_name_loses_preview :
    ¬ ∀ events, Steps (step (fun _ => sampleTrack) sampleDocuments)
      (fun _ _ next => PreviewsStored (fun _ => sampleTrack) sampleDocuments next) initial events := by
  intro all
  have last := steps_after _ _ initial _ [.start 0, .transfer 0]
    [.finish 0 (sampleFinish "CFNetworkDownload_xW9aP3.tmp")] rfl (all _)
  obtain ⟨stored, _⟩ := last _ rfl
  obtain ⟨bytes, _, present⟩ := stored 0 rfl
  have absent : (none : Option Bytes) = some bytes := present
  cases absent

end CultivationMotain.HalfTunes

import CultivationMotain.HalfTunes.DownloadService

set_option autoImplicit false

namespace CultivationMotain.HalfTunes

open Foundation ObjectHeap

variable (catalogue : TrackRef → Track)

def taskURL (s : State) (task : Ref) : Option URL := (read s.tasks task).map DownloadTask.url

def downloadURL (s : State) (ref : Ref) : Option URL :=
  (read s.downloads ref).map fun download => (catalogue download.track).previewURL

def OneURL (s : State) (download : Download) : Prop :=
  download.dataTask.bind (taskURL s) = some (catalogue download.track).previewURL ∧
    ∀ data, download.resumeData = some data → data.url = (catalogue download.track).previewURL

-- What holds of the objects in every reachable state, however the operations
-- are called.
structure WellFormed (s : State) : Prop where
  downloads : ∀ ref download, read s.downloads ref = some download → OneURL catalogue s download
  callbacks : ∀ ref task, (ref, task) ∈ s.resumeCallbacks →
    ∃ url, downloadURL catalogue s ref = some url ∧ taskURL s task = some url
  entries : ∀ url ref, s.activeDownloads url = some ref → downloadURL catalogue s ref = some url

-- Objects never go away and never change their URL.
structure Grows (s t : State) : Prop where
  tasks : ∀ task url, taskURL s task = some url → taskURL t task = some url
  downloads : ∀ ref url, downloadURL catalogue s ref = some url → downloadURL catalogue t ref = some url

theorem one_url_grows (s t : State) (download : Download) (grows : Grows catalogue s t)
    (one : OneURL catalogue s download) : OneURL catalogue t download := by
  obtain ⟨task, tasked, named⟩ := Option.bind_eq_some_iff.mp one.1
  exact ⟨Option.bind_eq_some_iff.mpr ⟨task, tasked, grows.tasks task _ named⟩, one.2⟩

theorem well_formed_grows (s t : State) (wellFormed : WellFormed catalogue s) (grows : Grows catalogue s t)
    (downloads : ∀ ref download, read t.downloads ref = some download →
      read s.downloads ref = some download ∨ OneURL catalogue t download)
    (callbacks : ∀ ref task, (ref, task) ∈ t.resumeCallbacks → (ref, task) ∈ s.resumeCallbacks ∨
      ∃ url, downloadURL catalogue t ref = some url ∧ taskURL t task = some url)
    (entries : ∀ url ref, t.activeDownloads url = some ref →
      s.activeDownloads url = some ref ∨ downloadURL catalogue t ref = some url) : WellFormed catalogue t where
  downloads ref download present := by
    rcases downloads ref download present with old | one
    · exact one_url_grows catalogue s t download grows (wellFormed.downloads ref download old)
    · exact one
  callbacks ref task member := by
    rcases callbacks ref task member with old | fresh
    · obtain ⟨url, captured, paused⟩ := wellFormed.callbacks ref task old
      exact ⟨url, grows.downloads ref url captured, grows.tasks task url paused⟩
    · exact fresh
  entries url ref active := by
    rcases entries url ref active with old | fresh
    · exact grows.downloads ref url (wellFormed.entries url ref old)
    · exact fresh

theorem task_url_update (s : State) (task other : Ref) (change : DownloadTask → DownloadTask)
    (kept : ∀ object, (change object).url = object.url) :
    (read (update s.tasks task change) other).map DownloadTask.url = taskURL s other := by
  rw [read_update, taskURL]
  split
  · rw [Option.map_map]
    exact congrArg (Option.map · _) (funext kept)
  · rfl

theorem download_url_update (s : State) (ref other : Ref) (change : Download → Download)
    (kept : ∀ object, (change object).track = object.track) :
    (read (update s.downloads ref change) other).map (fun download => (catalogue download.track).previewURL) =
      downloadURL catalogue s other := by
  rw [read_update, downloadURL]
  split
  · rw [Option.map_map]
    exact congrArg (Option.map · _) (funext fun object => congrArg (fun track => (catalogue track).previewURL)
      (kept object))
  · rfl

theorem cancel_task_url (task : DownloadTask) : (cancelTask task).url = task.url := by
  unfold cancelTask
  split <;> rfl

theorem active_entry (s : State) (url : URL) (ref : Ref) (wellFormed : WellFormed catalogue s)
    (active : s.activeDownloads url = some ref) :
    ∃ download task state, read s.downloads ref = some download ∧ (catalogue download.track).previewURL = url ∧
      download.dataTask = some task ∧ read s.tasks task = some ⟨url, state⟩ := by
  obtain ⟨download, present, same⟩ := Option.map_eq_some_iff.mp (wellFormed.entries url ref active)
  obtain ⟨task, tasked, named⟩ := Option.bind_eq_some_iff.mp (wellFormed.downloads ref download present).1
  obtain ⟨⟨_, state⟩, held, rfl⟩ := Option.map_eq_some_iff.mp named
  exact ⟨download, task, state, present, same, tasked, same ▸ held⟩

theorem active_injective (s : State) (a b : URL) (ref : Ref) (wellFormed : WellFormed catalogue s)
    (first : s.activeDownloads a = some ref) (second : s.activeDownloads b = some ref) : a = b :=
  Option.some.inj ((wellFormed.entries a ref first).symm.trans (wellFormed.entries b ref second))

theorem initial_well_formed : WellFormed catalogue initial where
  downloads := by simp [initial]
  callbacks := by simp [initial]
  entries := by simp [initial]

theorem pause_entry (s : State) (track : TrackRef) (ref task : Ref) (download : Download)
    (active : s.activeDownloads (catalogue track).previewURL = some ref)
    (present : read s.downloads ref = some download) (tasked : download.dataTask = some task) :
    pauseDownload catalogue s track =
      if download.isDownloading then
        { s with
          tasks := update s.tasks task cancelTask
          downloads := update s.downloads ref fun d => { d with isDownloading := false }
          resumeCallbacks := s.resumeCallbacks ++ [(ref, task)] }
      else s := by
  obtain ⟨_, _, _, isDownloading⟩ := download
  obtain rfl : _ = some task := tasked
  simp only [pauseDownload, active, present]
  cases isDownloading <;> rfl

theorem cancel_entry (s : State) (track : TrackRef) (ref task : Ref) (download : Download)
    (active : s.activeDownloads (catalogue track).previewURL = some ref)
    (present : read s.downloads ref = some download) (tasked : download.dataTask = some task) :
    cancelDownload catalogue s track =
      { s with
        tasks := update s.tasks task cancelTask
        activeDownloads := Function.update s.activeDownloads (catalogue track).previewURL none } := by
  simp only [cancelDownload, active, present, Option.bind_some, tasked]

theorem resume_entry (s : State) (track : TrackRef) (ref : Ref) (download : Download)
    (wellFormed : WellFormed catalogue s) (active : s.activeDownloads (catalogue track).previewURL = some ref)
    (present : read s.downloads ref = some download) :
    resumeDownload catalogue s track =
      { s with
        tasks := alloc s.tasks ⟨(catalogue track).previewURL, .running⟩
        downloads := update s.downloads ref fun d =>
          { d with dataTask := some (fresh s.tasks), isDownloading := true } } := by
  have same : (catalogue download.track).previewURL = (catalogue track).previewURL := by
    have named := wellFormed.entries _ ref active
    rw [downloadURL, present] at named
    exact Option.some.inj named
  have url : (download.resumeData.map ResumeData.url).getD (catalogue track).previewURL =
      (catalogue track).previewURL := by
    cases held : download.resumeData with
    | none => rfl
    | some data => exact ((wellFormed.downloads ref download present).2 data held).trans same
  simp only [resumeDownload, active, present, url]

theorem no_entry (s : State) (track : TrackRef)
    (absent : s.activeDownloads (catalogue track).previewURL = none) :
    pauseDownload catalogue s track = s ∧ cancelDownload catalogue s track = s ∧
      resumeDownload catalogue s track = s := by
  simp only [pauseDownload, cancelDownload, resumeDownload, absent, and_self]

theorem start_grows (s : State) (track : TrackRef) : Grows catalogue s (startDownload catalogue s track) where
  tasks task url named := by
    obtain ⟨object, present, same⟩ := Option.map_eq_some_iff.mp named
    simp only [taskURL, startDownload, read_alloc_old _ _ object task present, Option.map_some, same]
  downloads ref url named := by
    obtain ⟨download, present, same⟩ := Option.map_eq_some_iff.mp named
    simp only [downloadURL, startDownload, read_alloc_old _ _ download ref present, Option.map_some, same]

theorem start_well_formed (s : State) (track : TrackRef) (wellFormed : WellFormed catalogue s) :
    WellFormed catalogue (startDownload catalogue s track) := by
  refine well_formed_grows catalogue s _ wellFormed (start_grows catalogue s track) ?_ ?_ ?_
  · intro ref download present
    rcases read_alloc_cases _ _ _ _ present with ⟨_, rfl⟩ | ⟨_, old⟩
    · refine .inr ⟨?_, fun _ absent => (nomatch absent)⟩
      simp only [Option.bind_some, taskURL, startDownload, read_alloc_fresh, Option.map_some]
    · exact .inl old
  · exact fun _ _ member => .inl member
  · intro url ref active
    simp only [startDownload, Function.update_apply] at active
    split at active
    · rename_i same
      obtain rfl := Option.some.inj active
      simp only [downloadURL, startDownload, read_alloc_fresh, Option.map_some, same, or_true]
    · exact .inl active

theorem keeps_urls_grows (s t : State) (tasks : ∀ task, taskURL t task = taskURL s task)
    (downloads : ∀ ref, downloadURL catalogue t ref = downloadURL catalogue s ref) : Grows catalogue s t :=
  ⟨fun task _ named => (tasks task).trans named, fun ref _ named => (downloads ref).trans named⟩

theorem pause_well_formed (s : State) (track : TrackRef) (wellFormed : WellFormed catalogue s) :
    WellFormed catalogue (pauseDownload catalogue s track) := by
  cases active : s.activeDownloads (catalogue track).previewURL with
  | none => rwa [(no_entry catalogue s track active).1]
  | some ref =>
      obtain ⟨download, task, state, present, same, tasked, held⟩ := active_entry catalogue s _ ref wellFormed active
      rw [pause_entry catalogue s track ref task download active present tasked]
      split
      · have tasks : ∀ other, taskURL { s with tasks := update s.tasks task cancelTask } other = taskURL s other :=
          fun other => task_url_update s task other cancelTask cancel_task_url
        have downloads := fun other => download_url_update catalogue s ref other
          (fun d => { d with isDownloading := false }) fun _ => rfl
        have grows : Grows catalogue s { s with
            tasks := update s.tasks task cancelTask
            downloads := update s.downloads ref fun d => { d with isDownloading := false }
            resumeCallbacks := s.resumeCallbacks ++ [(ref, task)] } :=
          keeps_urls_grows catalogue s _ tasks downloads
        refine well_formed_grows catalogue s _ wellFormed grows ?_ ?_ fun _ _ entry => .inl entry
        · intro other changed found
          rcases read_update_cases _ _ _ _ _ found with ⟨_, object, old, rfl⟩ | ⟨_, old⟩
          · have one := one_url_grows catalogue s _ object grows (wellFormed.downloads ref object old)
            exact .inr one
          · exact .inl old
        · intro other paused member
          rcases List.mem_append.mp member with old | new
          · exact .inl old
          · obtain ⟨rfl, rfl⟩ := Prod.mk.inj (List.mem_singleton.mp new)
            refine .inr ⟨(catalogue track).previewURL, ?_, ?_⟩
            · exact grows.downloads other _ (wellFormed.entries _ other active)
            · exact grows.tasks paused _ (by rw [taskURL, held, Option.map_some])
      · exact wellFormed

theorem cancel_well_formed (s : State) (track : TrackRef) (wellFormed : WellFormed catalogue s) :
    WellFormed catalogue (cancelDownload catalogue s track) := by
  cases active : s.activeDownloads (catalogue track).previewURL with
  | none => rwa [(no_entry catalogue s track active).2.1]
  | some ref =>
      obtain ⟨download, task, state, present, same, tasked, held⟩ := active_entry catalogue s _ ref wellFormed active
      rw [cancel_entry catalogue s track ref task download active present tasked]
      have tasks : ∀ other, taskURL { s with tasks := update s.tasks task cancelTask } other = taskURL s other :=
        fun other => task_url_update s task other cancelTask cancel_task_url
      refine well_formed_grows catalogue s _ wellFormed (keeps_urls_grows catalogue s _ tasks fun _ => rfl)
        (fun _ _ old => .inl old) (fun _ _ old => .inl old) ?_
      intro url other entry
      simp only [Function.update_apply] at entry
      split at entry
      · cases entry
      · exact .inl entry

theorem resume_well_formed (s : State) (track : TrackRef) (wellFormed : WellFormed catalogue s) :
    WellFormed catalogue (resumeDownload catalogue s track) := by
  cases active : s.activeDownloads (catalogue track).previewURL with
  | none => rwa [(no_entry catalogue s track active).2.2]
  | some ref =>
      obtain ⟨download, task, state, present, same, tasked, held⟩ := active_entry catalogue s _ ref wellFormed active
      rw [resume_entry catalogue s track ref download wellFormed active present]
      have grows : Grows catalogue s { s with
          tasks := alloc s.tasks ⟨(catalogue track).previewURL, .running⟩
          downloads := update s.downloads ref fun d =>
            { d with dataTask := some (fresh s.tasks), isDownloading := true } } := by
        refine ⟨fun other url named => ?_, fun other url named => ?_⟩
        · obtain ⟨object, old, rfl⟩ := Option.map_eq_some_iff.mp named
          simp only [taskURL, read_alloc_old _ _ object other old, Option.map_some]
        · exact (download_url_update catalogue s ref other
            (fun d => { d with dataTask := some (fresh s.tasks), isDownloading := true }) fun _ => rfl).trans named
      refine well_formed_grows catalogue s _ wellFormed grows ?_ (fun _ _ old => .inl old) fun _ _ old => .inl old
      intro other changed found
      rcases read_update_cases _ _ _ _ _ found with ⟨rfl, object, old, rfl⟩ | ⟨_, old⟩
      · obtain rfl := Option.some.inj (present.symm.trans old)
        refine .inr ⟨?_, (wellFormed.downloads other download present).2⟩
        simp only [Option.bind_some, taskURL, read_alloc_fresh, Option.map_some, same]
      · exact .inl old

theorem resume_data_well_formed (s : State) (position : Nat) (produced : Bool) (wellFormed : WellFormed catalogue s) :
    WellFormed catalogue (receiveResumeData s position produced) := by
  unfold receiveResumeData
  split
  · exact wellFormed
  · rename_i ref task waiting
    obtain ⟨url, captured, paused⟩ := wellFormed.callbacks ref task (List.mem_of_getElem? waiting)
    refine well_formed_grows catalogue s _ wellFormed (keeps_urls_grows catalogue s _ (fun _ => rfl)
      fun other => download_url_update catalogue s ref other _ fun _ => rfl) ?_ ?_ fun _ _ old => .inl old
    · intro other changed found
      rcases read_update_cases _ _ _ _ _ found with ⟨_, object, old, rfl⟩ | ⟨_, old⟩
      · refine .inr ⟨(wellFormed.downloads ref object old).1, ?_⟩
        intro data delivered
        -- The data is about the URL of the paused task, which is the download's.
        have same : (catalogue object.track).previewURL = url := by
          rw [downloadURL, old] at captured
          exact Option.some.inj captured
        obtain ⟨paused, held, named⟩ := Option.map_eq_some_iff.mp paused
        rw [held, Option.map_some] at delivered
        cases produced with
        | false => cases delivered
        | true =>
            obtain rfl := Option.some.inj delivered
            exact named.trans same.symm
      · exact .inl old
    · exact fun _ _ member => .inl (List.mem_of_mem_eraseIdx member)

theorem transfer_well_formed (s : State) (task : Ref) (wellFormed : WellFormed catalogue s) :
    WellFormed catalogue { s with tasks := update s.tasks task fun t => { t with state := .finishing } } :=
  well_formed_grows catalogue s _ wellFormed
    (keeps_urls_grows catalogue s _ (fun other => task_url_update s task other _ fun _ => rfl) fun _ => rfl)
    (fun _ _ old => .inl old) (fun _ _ old => .inl old) fun _ _ old => .inl old

theorem finish_well_formed (documentsPath : URL) (s : State) (task : Ref) (url : URL) (finish : Finish)
    (wellFormed : WellFormed catalogue s) :
    WellFormed catalogue (didFinishDownloading catalogue documentsPath s task url finish) := by
  refine well_formed_grows catalogue s _ wellFormed
    (keeps_urls_grows catalogue s _ (fun other => task_url_update s task other _ fun _ => rfl) fun _ => rfl)
    (fun _ _ old => .inl old) (fun _ _ old => .inl old) ?_
  intro other ref entry
  simp only [didFinishDownloading, Function.update_apply] at entry
  split at entry
  · cases entry
  · exact .inl entry

theorem transfer_running (documentsPath : URL) (s next : State) (task : Ref)
    (taken : step catalogue documentsPath s (.transfer task) = some next) :
    ∃ url, read s.tasks task = some ⟨url, .running⟩ ∧
      next = { s with tasks := update s.tasks task fun t => { t with state := .finishing } } := by
  rw [step] at taken
  split at taken
  · rename_i url runs
    exact ⟨url, runs, (Option.some.inj taken).symm⟩
  · cases taken

theorem finish_finishing (documentsPath : URL) (s next : State) (task : Ref) (finish : Finish)
    (taken : step catalogue documentsPath s (.finish task finish) = some next) :
    ∃ url, read s.tasks task = some ⟨url, .finishing⟩ ∧
      next = didFinishDownloading catalogue documentsPath s task url finish := by
  rw [step] at taken
  split at taken
  · rename_i url held
    exact ⟨url, held, (Option.some.inj taken).symm⟩
  · cases taken

theorem step_well_formed (documentsPath : URL) (s : State) (event : Event) (next : State)
    (wellFormed : WellFormed catalogue s) (taken : step catalogue documentsPath s event = some next) :
    WellFormed catalogue next := by
  cases event with
  | start track => exact Option.some.inj taken ▸ start_well_formed catalogue s track wellFormed
  | pause track => exact Option.some.inj taken ▸ pause_well_formed catalogue s track wellFormed
  | resume track => exact Option.some.inj taken ▸ resume_well_formed catalogue s track wellFormed
  | cancel track => exact Option.some.inj taken ▸ cancel_well_formed catalogue s track wellFormed
  | resumeData position produced =>
      exact Option.some.inj taken ▸ resume_data_well_formed catalogue s position produced wellFormed
  | transfer task =>
      obtain ⟨_, _, rfl⟩ := transfer_running catalogue documentsPath s next task taken
      exact transfer_well_formed catalogue s task wellFormed
  | finish task finish =>
      obtain ⟨url, _, rfl⟩ := finish_finishing catalogue documentsPath s next task finish taken
      exact finish_well_formed catalogue documentsPath s task url finish wellFormed

end CultivationMotain.HalfTunes

import CultivationMotain.HalfTunes.DownloadObjects

set_option autoImplicit false

namespace CultivationMotain.HalfTunes

open Foundation ObjectHeap Runs

def Running (s : State) (url : URL) (task : Ref) : Prop := read s.tasks task = some ⟨url, .running⟩

def Busy (s : State) (task : Ref) : Prop :=
  ∃ url, read s.tasks task = some ⟨url, .running⟩ ∨ read s.tasks task = some ⟨url, .finishing⟩

-- A preview URL has at most one running task, the one in activeDownloads, and
-- isDownloading tells whether the stored task is running or about to finish.
structure Bookkeeping (s : State) : Prop where
  single : ∀ url a b, Running s url a → Running s url b → a = b
  stored : ∀ url task, Running s url task → ∃ ref download, s.activeDownloads url = some ref ∧
    read s.downloads ref = some download ∧ download.dataTask = some task
  flagged : ∀ url ref download, s.activeDownloads url = some ref → read s.downloads ref = some download →
    (download.isDownloading = true ↔ ∃ task, download.dataTask = some task ∧ Busy s task)

def Idle (s : State) (url : URL) : Prop := ∀ task, ¬ Running s url task

-- start and resume are called for an idle URL only, pause not for a download
-- whose finish is queued, and no finish is delivered while another task of its
-- URL is running.
def Disciplined (catalogue : TrackRef → Track) (s : State) : Event → Prop
  | .start track => Idle s (catalogue track).previewURL
  | .resume track => Idle s (catalogue track).previewURL
  | .pause track => ∀ ref download task, s.activeDownloads (catalogue track).previewURL = some ref →
      read s.downloads ref = some download → download.isDownloading = true → download.dataTask = some task →
      read s.tasks task ≠ some ⟨(catalogue track).previewURL, .finishing⟩
  | .finish task _ => ∀ url state, read s.tasks task = some ⟨url, state⟩ → Idle s url
  | _ => True

structure Bookkept (s : State) (url : URL) : Prop where
  stored : ∀ task, Running s url task → ∃ ref download, s.activeDownloads url = some ref ∧
    read s.downloads ref = some download ∧ download.dataTask = some task
  flagged : ∀ ref download, s.activeDownloads url = some ref → read s.downloads ref = some download →
    (download.isDownloading = true ↔ ∃ task, download.dataTask = some task ∧ Busy s task)

theorem bookkeeping_iff (s : State) : Bookkeeping s ↔ ∀ url, Bookkept s url := by
  constructor
  · exact fun kept url => ⟨kept.stored url, kept.flagged url⟩
  · intro each
    refine ⟨?_, fun url => (each url).stored, fun url => (each url).flagged⟩
    intro url a b first second
    obtain ⟨ref, download, active, present, storedA⟩ := (each url).stored a first
    obtain ⟨ref', download', active', present', storedB⟩ := (each url).stored b second
    obtain rfl := Option.some.inj (active.symm.trans active')
    obtain rfl := Option.some.inj (present.symm.trans present')
    exact Option.some.inj (storedA.symm.trans storedB)

-- Two states agree at a URL when its tasks, its entry and the download stored
-- there are the same objects in the same states.
structure Agrees (s t : State) (url : URL) : Prop where
  tasks : ∀ task state, read s.tasks task = some ⟨url, state⟩ ↔ read t.tasks task = some ⟨url, state⟩
  entry : t.activeDownloads url = s.activeDownloads url
  download : ∀ ref, s.activeDownloads url = some ref → read t.downloads ref = read s.downloads ref

theorem busy_iff (s : State) (url : URL) (task : Ref) (state : TaskState)
    (held : read s.tasks task = some ⟨url, state⟩) : Busy s task ↔ state = .running ∨ state = .finishing := by
  simp only [Busy, held, Option.some.injEq, DownloadTask.mk.injEq]
  constructor
  · rintro ⟨_, ⟨_, running⟩ | ⟨_, finishing⟩⟩
    · exact .inl running
    · exact .inr finishing
  · rintro (running | finishing)
    · exact ⟨url, .inl ⟨rfl, running⟩⟩
    · exact ⟨url, .inr ⟨rfl, finishing⟩⟩

variable (catalogue : TrackRef → Track)

theorem agrees_bookkept (s t : State) (url : URL) (wellFormed : WellFormed catalogue s) (agrees : Agrees s t url) :
    Bookkept s url ↔ Bookkept t url := by
  have running : ∀ task, Running t url task ↔ Running s url task := fun task => (agrees.tasks task .running).symm
  -- The task stored for the URL is one of the tasks the two states agree on.
  have busy : ∀ ref download task, s.activeDownloads url = some ref → read s.downloads ref = some download →
      download.dataTask = some task → (Busy t task ↔ Busy s task) := by
    intro ref download task active present tasked
    obtain ⟨_, _, state, present', _, tasked', held⟩ := active_entry catalogue s url ref wellFormed active
    obtain rfl := Option.some.inj (present.symm.trans present')
    obtain rfl := Option.some.inj (tasked.symm.trans tasked')
    rw [busy_iff s url _ state held, busy_iff t url _ state ((agrees.tasks _ state).mp held)]
  constructor
  · intro kept
    refine ⟨?_, ?_⟩
    · intro task runs
      obtain ⟨ref, download, active, present, tasked⟩ := kept.stored task ((running task).mp runs)
      exact ⟨ref, download, agrees.entry.trans active, (agrees.download ref active).trans present, tasked⟩
    · intro ref download active present
      have active' := agrees.entry.symm.trans active
      have present' := (agrees.download ref active').symm.trans present
      rw [kept.flagged ref download active' present']
      exact exists_congr fun task => and_congr_right fun tasked =>
        (busy ref download task active' present' tasked).symm
  · intro kept
    refine ⟨?_, ?_⟩
    · intro task runs
      obtain ⟨ref, download, active, present, tasked⟩ := kept.stored task ((running task).mpr runs)
      have active' := agrees.entry.symm.trans active
      exact ⟨ref, download, active', (agrees.download ref active').symm.trans present, tasked⟩
    · intro ref download active present
      rw [kept.flagged ref download (agrees.entry.trans active) ((agrees.download ref active).trans present)]
      exact exists_congr fun task => and_congr_right fun tasked => busy ref download task active present tasked

theorem bookkeeping_local (s t : State) (url : URL) (wellFormed : WellFormed catalogue s) (kept : Bookkeeping s)
    (elsewhere : ∀ other, other ≠ url → Agrees s t other) : Bookkeeping t ↔ Bookkept t url := by
  rw [bookkeeping_iff]
  refine ⟨fun each => each url, fun here other => ?_⟩
  by_cases same : other = url
  · exact same ▸ here
  · exact (agrees_bookkept catalogue s t other wellFormed (elsewhere other same)).mp ((bookkeeping_iff s).mp kept other)

theorem alloc_agrees (s : State) (url other : URL) (state new : TaskState) (task : Ref) (different : other ≠ url) :
    read s.tasks task = some ⟨other, state⟩ ↔ read (alloc s.tasks ⟨url, new⟩) task = some ⟨other, state⟩ := by
  constructor
  · exact read_alloc_old _ _ _ task
  · intro present
    rcases read_alloc_cases _ _ _ _ present with ⟨_, same⟩ | ⟨_, old⟩
    · exact absurd (congrArg DownloadTask.url same).symm different
    · exact old

theorem update_agrees (s : State) (url other : URL) (held state : TaskState) (ref task : Ref)
    (change : DownloadTask → DownloadTask) (present : read s.tasks ref = some ⟨url, held⟩)
    (kept : (change ⟨url, held⟩).url = url) (different : other ≠ url) :
    read s.tasks task = some ⟨other, state⟩ ↔ read (update s.tasks ref change) task = some ⟨other, state⟩ := by
  by_cases same : task = ref
  · subst same
    rw [read_update_same _ _ _ _ present, present]
    constructor
    · intro found
      exact absurd (congrArg DownloadTask.url (Option.some.inj found)).symm different
    · intro found
      exact absurd ((congrArg DownloadTask.url (Option.some.inj found)).symm.trans kept) different
  · rw [read_update_other _ _ _ _ same]

theorem running_stored (s : State) (url : URL) (ref task other : Ref) (download : Download) (kept : Bookkeeping s)
    (active : s.activeDownloads url = some ref) (present : read s.downloads ref = some download)
    (tasked : download.dataTask = some task) (runs : Running s url other) : other = task := by
  obtain ⟨ref', download', active', present', tasked'⟩ := kept.stored url other runs
  obtain rfl := Option.some.inj (active.symm.trans active')
  obtain rfl := Option.some.inj (present.symm.trans present')
  exact Option.some.inj (tasked'.symm.trans tasked)

theorem cancelled_idle (s : State) (url : URL) (ref task other : Ref) (download : Download) (kept : Bookkeeping s)
    (active : s.activeDownloads url = some ref) (present : read s.downloads ref = some download)
    (tasked : download.dataTask = some task) :
    read (update s.tasks task cancelTask) other ≠ some ⟨url, .running⟩ := by
  intro runs
  rcases read_update_cases _ _ _ _ _ runs with ⟨_, object, _, stopped⟩ | ⟨different, old⟩
  · unfold cancelTask at stopped
    split at stopped
    · cases congrArg DownloadTask.state stopped
    · rename_i notRunning
      exact absurd (congrArg DownloadTask.state stopped) notRunning
  · exact different (running_stored s url ref task other download kept active present tasked old)

theorem other_download_kept (s : State) (url other : URL) (ref ref' : Ref) (change : Download → Download)
    (wellFormed : WellFormed catalogue s) (active : s.activeDownloads url = some ref) (different : other ≠ url)
    (active' : s.activeDownloads other = some ref') :
    read (update s.downloads ref change) ref' = read s.downloads ref' :=
  read_update_other _ _ _ _ fun same =>
    different (active_injective catalogue s other url ref wellFormed (same ▸ active') active)

theorem start_bookkeeping_iff (s : State) (track : TrackRef) (wellFormed : WellFormed catalogue s)
    (kept : Bookkeeping s) :
    Bookkeeping (startDownload catalogue s track) ↔ Idle s (catalogue track).previewURL := by
  rw [bookkeeping_local catalogue s _ (catalogue track).previewURL wellFormed kept]
  · constructor
    · -- Another running task would be stored in the entry just made.
      intro here task runs
      obtain ⟨ref, download, active, present, tasked⟩ := here.stored task (read_alloc_old _ _ _ task runs)
      simp only [startDownload, Function.update_self, Option.some.injEq] at active present
      subst active
      rw [read_alloc_fresh, Option.some.injEq] at present
      subst present
      obtain rfl : fresh s.tasks = task := Option.some.inj tasked
      rw [Running, read_fresh] at runs
      cases runs
    · intro idle
      refine ⟨?_, ?_⟩
      · intro task runs
        rcases read_alloc_cases _ _ _ _ runs with ⟨rfl, _⟩ | ⟨_, old⟩
        · exact ⟨fresh s.downloads, _, Function.update_self .., read_alloc_fresh .., rfl⟩
        · exact absurd old (idle task)
      · intro ref download active present
        simp only [startDownload, Function.update_self, Option.some.injEq] at active present
        subst active
        rw [read_alloc_fresh, Option.some.injEq] at present
        subst present
        have started : Busy (startDownload catalogue s track) (fresh s.tasks) :=
          ⟨(catalogue track).previewURL, .inl (read_alloc_fresh ..)⟩
        exact ⟨fun _ => ⟨fresh s.tasks, rfl, started⟩, fun _ => rfl⟩
  · intro other different
    refine ⟨fun task state => alloc_agrees s _ other state _ task different, ?_, ?_⟩
    · exact Function.update_of_ne different _ _
    · intro ref active
      obtain ⟨download, _, _, present, _⟩ := active_entry catalogue s other ref wellFormed active
      exact (read_alloc_old _ _ download ref present).trans present.symm

theorem resume_bookkeeping_iff (s : State) (track : TrackRef) (wellFormed : WellFormed catalogue s)
    (kept : Bookkeeping s) :
    Bookkeeping (resumeDownload catalogue s track) ↔ Idle s (catalogue track).previewURL := by
  cases active : s.activeDownloads (catalogue track).previewURL with
  | none =>
      rw [(no_entry catalogue s track active).2.2]
      refine ⟨fun _ task runs => ?_, fun _ => kept⟩
      obtain ⟨ref, _, present, _⟩ := kept.stored _ task runs
      rw [active] at present
      cases present
  | some ref =>
      obtain ⟨download, old, state, present, same, tasked, held⟩ := active_entry catalogue s _ ref wellFormed active
      rw [resume_entry catalogue s track ref download wellFormed active present,
        bookkeeping_local catalogue s _ (catalogue track).previewURL wellFormed kept]
      · have resumed : read (update s.downloads ref fun d =>
            { d with dataTask := some (fresh s.tasks), isDownloading := true }) ref =
              some { download with dataTask := some (fresh s.tasks), isDownloading := true } :=
          read_update_same _ _ _ _ present
        constructor
        · intro here task runs
          obtain ⟨ref', download', active', present', tasked'⟩ := here.stored task (read_alloc_old _ _ _ task runs)
          obtain rfl : ref = ref' := Option.some.inj (active.symm.trans active')
          obtain rfl := Option.some.inj (resumed.symm.trans present')
          obtain rfl : fresh s.tasks = task := Option.some.inj tasked'
          rw [Running, read_fresh] at runs
          cases runs
        · intro idle
          refine ⟨?_, ?_⟩
          · intro task runs
            rcases read_alloc_cases _ _ _ _ runs with ⟨rfl, _⟩ | ⟨_, old⟩
            · exact ⟨ref, _, active, resumed, rfl⟩
            · exact absurd old (idle task)
          · intro ref' download' active' present'
            obtain rfl : ref = ref' := Option.some.inj (active.symm.trans active')
            obtain rfl := Option.some.inj (resumed.symm.trans present')
            exact ⟨fun _ => ⟨fresh s.tasks, rfl, (catalogue track).previewURL, .inl (read_alloc_fresh ..)⟩,
              fun _ => rfl⟩
      · intro other different
        exact ⟨fun task state => alloc_agrees s _ other state _ task different, rfl, fun ref' active' =>
          other_download_kept catalogue s _ other ref ref' _ wellFormed active different active'⟩

theorem cancel_bookkeeping (s : State) (track : TrackRef) (wellFormed : WellFormed catalogue s)
    (kept : Bookkeeping s) : Bookkeeping (cancelDownload catalogue s track) := by
  cases active : s.activeDownloads (catalogue track).previewURL with
  | none => rwa [(no_entry catalogue s track active).2.1]
  | some ref =>
      obtain ⟨download, task, state, present, same, tasked, held⟩ := active_entry catalogue s _ ref wellFormed active
      rw [cancel_entry catalogue s track ref task download active present tasked,
        bookkeeping_local catalogue s _ (catalogue track).previewURL wellFormed kept]
      · refine ⟨fun other runs => ?_, ?_⟩
        · exact absurd runs (cancelled_idle s _ ref task other download kept active present tasked)
        · intro ref' download' active'
          simp only [Function.update_self] at active'
          cases active'
      · intro other different
        refine ⟨fun task' state' => update_agrees s _ other state state' task task' cancelTask held
          (cancel_task_url _) different, Function.update_of_ne different _ _, fun _ _ => rfl⟩

theorem pause_disciplined_iff (s : State) (track : TrackRef) (ref task : Ref) (download : Download) (state : TaskState)
    (active : s.activeDownloads (catalogue track).previewURL = some ref)
    (present : read s.downloads ref = some download) (tasked : download.dataTask = some task)
    (held : read s.tasks task = some ⟨(catalogue track).previewURL, state⟩) :
    Disciplined catalogue s (.pause track) ↔ (download.isDownloading = true → state ≠ .finishing) := by
  constructor
  · intro allowed downloading finishing
    exact allowed ref download task active present downloading tasked (finishing ▸ held)
  · intro allowed ref' download' task' active' present' downloading tasked' finishing
    obtain rfl := Option.some.inj (active.symm.trans active')
    obtain rfl := Option.some.inj (present.symm.trans present')
    obtain rfl := Option.some.inj (tasked.symm.trans tasked')
    rw [held] at finishing
    exact allowed downloading (congrArg DownloadTask.state (Option.some.inj finishing))

theorem pause_bookkeeping_iff (s : State) (track : TrackRef) (wellFormed : WellFormed catalogue s)
    (kept : Bookkeeping s) :
    Bookkeeping (pauseDownload catalogue s track) ↔ Disciplined catalogue s (.pause track) := by
  cases active : s.activeDownloads (catalogue track).previewURL with
  | none =>
      rw [(no_entry catalogue s track active).1]
      refine ⟨fun _ ref _ _ active' => ?_, fun _ => kept⟩
      rw [active] at active'
      cases active'
  | some ref =>
      obtain ⟨download, task, state, present, same, tasked, held⟩ := active_entry catalogue s _ ref wellFormed active
      rw [pause_disciplined_iff catalogue s track ref task download state active present tasked held,
        pause_entry catalogue s track ref task download active present tasked]
      by_cases downloading : download.isDownloading = true
      · rw [if_pos downloading, bookkeeping_local catalogue s _ (catalogue track).previewURL wellFormed kept]
        · have paused : read (update s.downloads ref fun d => { d with isDownloading := false }) ref =
              some { download with isDownloading := false } := read_update_same _ _ _ _ present
          have stopped := read_update_same s.tasks task cancelTask _ held
          have busy := (busy_iff s _ task state held).mp
            (by
              obtain ⟨task', tasked', isBusy⟩ := (kept.flagged _ ref download active present).mp downloading
              exact Option.some.inj (tasked.symm.trans tasked') ▸ isBusy)
          constructor
          · intro here _ finishing
            subst finishing
            have flag := (here.flagged ref _ active paused).mpr
              ⟨task, tasked, (catalogue track).previewURL, .inr stopped⟩
            cases flag
          · intro allowed
            obtain rfl : state = .running := busy.resolve_right (allowed downloading)
            refine ⟨?_, ?_⟩
            · intro other runs
              exact absurd runs (cancelled_idle s _ ref task other download kept active present tasked)
            · intro ref' download' active' present'
              obtain rfl : ref = ref' := Option.some.inj (active.symm.trans active')
              obtain rfl := Option.some.inj (paused.symm.trans present')
              refine ⟨fun flag => (nomatch flag), ?_⟩
              rintro ⟨task', tasked', isBusy⟩
              obtain rfl : task = task' := Option.some.inj (tasked.symm.trans tasked')
              rcases (busy_iff _ _ task .cancelled stopped).mp isBusy with bad | bad <;> cases bad
        · intro other different
          exact ⟨fun task' state' => update_agrees s _ other state state' task task' cancelTask held
            (cancel_task_url _) different, rfl, fun ref' active' =>
              other_download_kept catalogue s _ other ref ref' _ wellFormed active different active'⟩
      · rw [if_neg downloading]
        exact ⟨fun _ yes => absurd yes downloading, fun _ => kept⟩

theorem resume_data_bookkeeping (s : State) (position : Nat) (produced : Bool) (kept : Bookkeeping s) :
    Bookkeeping (receiveResumeData s position produced) := by
  unfold receiveResumeData
  split
  · exact kept
  · -- Only resumeData changes, which the bookkeeping does not read.
    refine ⟨kept.single, ?_, ?_⟩
    · intro url task runs
      obtain ⟨ref, download, active, present, tasked⟩ := kept.stored url task runs
      rename_i captured _ _
      by_cases same : ref = captured
      · subst same
        exact ⟨ref, _, active, read_update_same _ _ _ _ present, tasked⟩
      · exact ⟨ref, download, active, (read_update_other _ _ _ _ same).trans present, tasked⟩
    · intro url ref download active present
      rcases read_update_cases _ _ _ _ _ present with ⟨rfl, object, old, rfl⟩ | ⟨_, old⟩
      · exact kept.flagged url ref object active old
      · exact kept.flagged url ref download active old

theorem transfer_bookkeeping (s : State) (url : URL) (task : Ref) (runs : Running s url task)
    (kept : Bookkeeping s) :
    Bookkeeping { s with tasks := update s.tasks task fun t => { t with state := .finishing } } := by
  have finishing := read_update_same s.tasks task (fun t => { t with state := .finishing }) _ runs
  have running : ∀ other address, Running { s with
      tasks := update s.tasks task fun t => { t with state := .finishing } } address other →
      Running s address other := by
    intro other address still
    rcases read_update_cases _ _ _ _ _ still with ⟨rfl, object, _, stopped⟩ | ⟨_, old⟩
    · cases stopped
    · exact old
  have busy : ∀ other, Busy { s with tasks := update s.tasks task fun t => { t with state := .finishing } } other ↔
      Busy s other := by
    intro other
    by_cases same : other = task
    · subst same
      rw [busy_iff _ url other .finishing finishing, busy_iff s url other .running runs]
      simp
    · simp only [Busy, read_update_other _ _ _ _ same]
  refine ⟨fun address a b first second => kept.single address a b (running a address first) (running b address second),
    fun address other still => kept.stored address other (running other address still), ?_⟩
  intro address ref download active present
  simp only [busy]
  exact kept.flagged address ref download active present

theorem finish_bookkeeping_iff (documentsPath : URL) (s : State) (task : Ref) (url : URL) (finish : Finish)
    (wellFormed : WellFormed catalogue s) (kept : Bookkeeping s) (held : read s.tasks task = some ⟨url, .finishing⟩) :
    Bookkeeping (didFinishDownloading catalogue documentsPath s task url finish) ↔ Idle s url := by
  rw [bookkeeping_local catalogue s _ url wellFormed kept]
  · have removed : (didFinishDownloading catalogue documentsPath s task url finish).activeDownloads url = none := by
      simp [didFinishDownloading]
    constructor
    · -- The entry is gone, so a task still running for the URL is not stored.
      intro here other runs
      have different : other ≠ task := by
        rintro rfl
        rw [Running, held] at runs
        cases runs
      have still : Running (didFinishDownloading catalogue documentsPath s task url finish) url other :=
        (read_update_other _ _ _ _ different).trans runs
      obtain ⟨ref, _, active, _⟩ := here.stored other still
      rw [removed] at active
      cases active
    · intro idle
      refine ⟨?_, ?_⟩
      · intro other runs
        rcases read_update_cases _ _ _ _ _ runs with ⟨_, _, _, ended⟩ | ⟨_, old⟩
        · cases ended
        · exact absurd old (idle other)
      · intro ref _ active
        rw [removed] at active
        cases active
  · intro other different
    refine ⟨fun task' state => update_agrees s url other .finishing state task task' _ held rfl different,
      Function.update_of_ne different _ _, fun _ _ => rfl⟩

theorem step_bookkeeping_iff (documentsPath : URL) (s : State) (event : Event) (next : State)
    (inv : WellFormed catalogue s ∧ Bookkeeping s) (taken : step catalogue documentsPath s event = some next) :
    Bookkeeping next ↔ Disciplined catalogue s event := by
  obtain ⟨wellFormed, kept⟩ := inv
  cases event with
  | start track => exact Option.some.inj taken ▸ start_bookkeeping_iff catalogue s track wellFormed kept
  | pause track => exact Option.some.inj taken ▸ pause_bookkeeping_iff catalogue s track wellFormed kept
  | resume track => exact Option.some.inj taken ▸ resume_bookkeeping_iff catalogue s track wellFormed kept
  | cancel track =>
      have after := cancel_bookkeeping catalogue s track wellFormed kept
      exact ⟨fun _ => trivial, fun _ => Option.some.inj taken ▸ after⟩
  | resumeData position produced =>
      have after := resume_data_bookkeeping s position produced kept
      exact ⟨fun _ => trivial, fun _ => Option.some.inj taken ▸ after⟩
  | transfer task =>
      obtain ⟨url, runs, rfl⟩ := transfer_running catalogue documentsPath s next task taken
      exact iff_of_true (transfer_bookkeeping s url task runs kept) trivial
  | finish task finish =>
      obtain ⟨url, held, rfl⟩ := finish_finishing catalogue documentsPath s next task finish taken
      have idle : Disciplined catalogue s (.finish task finish) ↔ Idle s url := by
        constructor
        · exact fun allowed => allowed url .finishing held
        · intro idle other state present
          have same := Option.some.inj (held.symm.trans present)
          cases same
          exact idle
      rw [idle]
      exact finish_bookkeeping_iff catalogue documentsPath s task url finish wellFormed kept held

theorem initial_bookkeeping : Bookkeeping initial where
  single := by simp [Running, initial]
  stored := by simp [Running, initial]
  flagged := by simp [initial]

theorem download_bookkeeping_iff (documentsPath : URL) (events : List Event) :
    Steps (step catalogue documentsPath) (fun _ _ next => Bookkeeping next) initial events ↔
      Steps (step catalogue documentsPath) (fun before event _ => Disciplined catalogue before event) initial events :=
  steps_iff (step catalogue documentsPath) (fun s => WellFormed catalogue s ∧ Bookkeeping s) _ _
    (fun s event next inv taken => step_bookkeeping_iff catalogue documentsPath s event next inv taken)
    (fun s event next inv taken good => ⟨step_well_formed catalogue documentsPath s event next inv.1 taken, good⟩)
    initial events ⟨initial_well_formed catalogue, initial_bookkeeping⟩

theorem second_start_runs_twice :
    ¬ ∀ events, Steps (step (fun _ => sampleTrack) ⟨"file:///", ["Documents"]⟩) (fun _ _ next => Bookkeeping next)
      initial events := by
  intro all
  have last := steps_after _ _ initial _ [.start 0] [.start 1] rfl (all _)
  obtain ⟨kept, _⟩ := last _ rfl
  have same := kept.single sampleTrack.previewURL 0 1 rfl rfl
  cases same

end CultivationMotain.HalfTunes

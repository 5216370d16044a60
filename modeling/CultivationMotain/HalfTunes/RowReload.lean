import CultivationMotain.HalfTunes.LatestSearch
import CultivationMotain.HalfTunes.SearchViewController
import CultivationMotain.HalfTunes.StoredPreviews

set_option autoImplicit false

namespace CultivationMotain.HalfTunes

open Foundation ObjectHeap

-- The rows are the tracks of one answer, each at its index.
def RowsOf (tracks : Heap (Nat × Track)) (rows : List TrackRef) (answer : Nat) : Prop :=
  ∀ (row : Nat) (track : TrackRef), rows[row]? = some track ↔
    ∃ object, read tracks track = some (answer, object) ∧ object.index = row

structure Listed (results : Results) : Prop where
  parsed : RowsOf results.tracks results.parsed results.answers
  shown : RowsOf results.tracks results.searchResults results.shown
  past : ∀ track answer object, read results.tracks track = some (answer, object) → answer ≤ results.answers
  older : results.shown ≤ results.answers
  known : ∀ ref download, read results.downloads.downloads ref = some download → download.track < fresh results.tracks
  finished : ∀ track ∈ results.finishedTracks, track < fresh results.tracks
  reloads : results.downloads.reloads = results.finishedTracks.map fun track => (catalogue results track).index

section Parsing

variable (system : Search.System)

theorem parse_track_index (index : Nat) (trackDictionary : Search.JSON) (track : Track)
    (parsed : Search.parseTrack system index trackDictionary = some track) : track.index = index := by
  cases trackDictionary with
  | object members =>
      simp only [Search.parseTrack, Option.bind_eq_bind, Option.bind_eq_some_iff] at parsed
      obtain ⟨_, _, _, _, _, _, _, _, same⟩ := parsed
      rw [← Option.some.inj same]
  | _ => cases parsed

def Indexed (tracks : List Track) : Prop :=
  ∀ (position : Nat) (track : Track), tracks[position]? = some track → track.index = position

theorem add_track_indexed (state : Search.QueryService × Nat) (trackDictionary : Search.JSON)
    (count : state.1.tracks.length = state.2) (indexed : Indexed state.1.tracks) :
    (Search.addTrack system state trackDictionary).1.tracks.length = (Search.addTrack system state trackDictionary).2 ∧
      Indexed (Search.addTrack system state trackDictionary).1.tracks := by
  rw [Search.addTrack]
  split
  · rename_i track parsed
    refine ⟨by simp [count], ?_⟩
    intro position found present
    by_cases old : position < state.1.tracks.length
    · rw [List.getElem?_append_left old] at present
      exact indexed position found present
    · rw [List.getElem?_append_right (Nat.not_lt.mp old)] at present
      obtain ⟨zero, same⟩ := List.getElem?_eq_some_iff.mp present
      have last : position = state.2 := by
        rw [List.length_singleton] at zero
        omega
      rw [List.getElem_singleton] at same
      rw [last, ← same]
      exact parse_track_index system state.2 trackDictionary track parsed
  · exact ⟨count, indexed⟩

theorem tracks_indexed (array : List Search.JSON) (state : Search.QueryService × Nat)
    (count : state.1.tracks.length = state.2) (indexed : Indexed state.1.tracks) :
    Indexed (array.foldl (Search.addTrack system) state).1.tracks := by
  induction array generalizing state with
  | nil => exact indexed
  | cons trackDictionary rest ih =>
      obtain ⟨counted, added⟩ := add_track_indexed system state trackDictionary count indexed
      exact ih _ counted added

theorem update_search_results_indexed (service next : Search.QueryService) (data : Bytes)
    (updated : Search.updateSearchResults system service data = some next) : Indexed next.tracks := by
  have empty : Indexed [] := fun _ _ present => by cases present
  rw [Search.updateSearchResults] at updated
  split at updated
  · cases updated
    exact empty
  · split at updated
    · cases updated
      exact empty
    · cases updated
      exact tracks_indexed system _ _ rfl empty
  · cases updated

theorem parsed_indexed (search next : Search.State) (parsing : parses search = true)
    (taken : Search.step system search .complete = some next) : Indexed next.service.tracks := by
  rw [parses] at parsing
  split at parsing
  · rename_i task data rest queue
    simp only [Search.step, queue, Search.complete] at taken
    obtain ⟨service, updated, rfl⟩ := Option.map_eq_some_iff.mp taken
    exact update_search_results_indexed system search.service service data updated
  · cases parsing

end Parsing

def numbered (tracks : Heap (Nat × Track)) (number : Nat) (new : List Track) : Heap (Nat × Track) :=
  tracks ++ new.map fun track => (number, track)

theorem numbered_old (tracks : Heap (Nat × Track)) (number : Nat) (new : List Track) (track : TrackRef)
    (old : track < fresh tracks) : read (numbered tracks number new) track = read tracks track :=
  List.getElem?_append_left old

theorem numbered_new (tracks : Heap (Nat × Track)) (number : Nat) (new : List Track) (position : Nat) :
    read (numbered tracks number new) (fresh tracks + position) = new[position]?.map fun track => (number, track) := by
  have beyond : (numbered tracks number new)[tracks.length + position]? = _ :=
    List.getElem?_append_right (Nat.le_add_right _ _)
  rw [Nat.add_sub_cancel_left, List.getElem?_map] at beyond
  exact beyond

theorem numbered_cases (tracks : Heap (Nat × Track)) (number answer : Nat) (new : List Track) (track : TrackRef)
    (object : Track) (present : read (numbered tracks number new) track = some (answer, object)) :
    read tracks track = some (answer, object) ∨
      answer = number ∧ ∃ position, track = fresh tracks + position ∧ new[position]? = some object := by
  by_cases old : track < fresh tracks
  · rw [numbered_old tracks number new track old] at present
    exact .inl present
  · obtain ⟨position, rfl⟩ := Nat.exists_eq_add_of_le (Nat.not_lt.mp old)
    rw [numbered_new] at present
    obtain ⟨found, there, same⟩ := Option.map_eq_some_iff.mp present
    cases same
    exact .inr ⟨rfl, position, rfl, there⟩

theorem rows_of_numbered (tracks : Heap (Nat × Track)) (rows : List TrackRef) (number answer : Nat) (new : List Track)
    (different : answer ≠ number) (rowsOf : RowsOf tracks rows answer) :
    RowsOf (numbered tracks number new) rows answer := by
  intro row track
  rw [rowsOf row track]
  constructor
  · intro ⟨object, present, place⟩
    exact ⟨object, (numbered_old tracks number new track (read_before_fresh _ _ _ present)).trans present, place⟩
  · intro ⟨object, present, place⟩
    cases numbered_cases tracks number answer new track object present with
    | inl old => exact ⟨object, old, place⟩
    | inr fresh => exact absurd fresh.1 different

theorem numbered_rows (tracks : Heap (Nat × Track)) (number : Nat) (new : List Track) (indexed : Indexed new)
    (past : ∀ track answer object, read tracks track = some (answer, object) → answer < number) :
    RowsOf (numbered tracks number new) (List.range' (fresh tracks) new.length) number := by
  intro row track
  constructor
  · intro placed
    obtain ⟨inside, place⟩ := List.getElem?_eq_some_iff.mp placed
    rw [List.length_range'] at inside
    rw [List.getElem_range', Nat.one_mul] at place
    have found := List.getElem?_eq_getElem inside
    refine ⟨new[row], ?_, indexed row _ found⟩
    rw [← place, numbered_new, found]
    rfl
  · intro ⟨object, present, place⟩
    cases numbered_cases tracks number number new track object present with
    | inl old => exact absurd (past track number object old) (Nat.lt_irrefl _)
    | inr fresh =>
        obtain ⟨position, same, found⟩ := fresh.2
        rw [← place, indexed position object found]
        rw [List.getElem?_range' (List.getElem?_eq_some_iff.mp found).1, Nat.one_mul, same]

section Downloads

-- The downloads of a heap are those of an earlier one, each with its track, or
-- are for a track just tapped.
def TracksKept (before after : Heap Download) (tapped : TrackRef → Prop) : Prop :=
  ∀ ref download, read after ref = some download →
    (∃ old, read before ref = some old ∧ old.track = download.track) ∨ tapped download.track

theorem tracks_kept_refl (heap : Heap Download) (tapped : TrackRef → Prop) : TracksKept heap heap tapped :=
  fun _ download present => .inl ⟨download, present, rfl⟩

theorem tracks_kept_update (heap : Heap Download) (ref : Ref) (change : Download → Download)
    (tapped : TrackRef → Prop) (kept : ∀ download, (change download).track = download.track) :
    TracksKept heap (update heap ref change) tapped := by
  intro other download present
  cases read_update_cases heap ref other change download present with
  | inl changed =>
      obtain ⟨same, object, held, rfl⟩ := changed
      exact .inl ⟨object, same ▸ held, (kept object).symm⟩
  | inr held => exact .inl ⟨download, held.2, rfl⟩

variable (catalogue : TrackRef → Track)

theorem action_tracks (button : Button) (s : State) (track : TrackRef) :
    (action button catalogue s track).reloads = s.reloads ∧
      TracksKept s.downloads (action button catalogue s track).downloads fun tapped => tapped = track := by
  cases button with
  | download =>
      refine ⟨rfl, fun ref download present => ?_⟩
      cases read_alloc_cases s.downloads _ download ref present with
      | inl new =>
          rw [← new.2]
          exact .inr rfl
      | inr old => exact .inl ⟨download, old.2, rfl⟩
  | pause =>
      rw [action, pauseDownload]
      split
      · exact ⟨rfl, tracks_kept_refl _ _⟩
      · split
        · dsimp only
          split
          · exact ⟨rfl, tracks_kept_update _ _ _ _ fun _ => rfl⟩
          · exact ⟨rfl, tracks_kept_update _ _ _ _ fun _ => rfl⟩
        · exact ⟨rfl, tracks_kept_refl _ _⟩
  | resume =>
      rw [action, resumeDownload]
      dsimp only
      split
      · exact ⟨rfl, tracks_kept_refl _ _⟩
      · split
        · exact ⟨rfl, tracks_kept_refl _ _⟩
        · exact ⟨rfl, tracks_kept_update _ _ _ _ fun _ => rfl⟩
  | cancel =>
      rw [action, cancelDownload]
      dsimp only
      split
      · exact ⟨rfl, tracks_kept_refl _ _⟩
      · exact ⟨rfl, tracks_kept_refl _ _⟩

def dispatched (s : State) : Event → List TrackRef
  | .finish task _ => (finishedTrack s task).toList
  | _ => []

theorem session_tracks (documentsPath : URL) (s next : State) (event : Event) (passive : fromSession event)
    (taken : step catalogue documentsPath s event = some next) :
    next.reloads = s.reloads ++ (dispatched s event).map (fun track => (catalogue track).index) ∧
      TracksKept s.downloads next.downloads fun _ => False := by
  cases event with
  | start track => exact passive.elim
  | pause track => exact passive.elim
  | resume track => exact passive.elim
  | cancel track => exact passive.elim
  | resumeData position produced =>
      cases taken
      have nothing : dispatched s (.resumeData position produced) = [] := rfl
      rw [nothing, List.map_nil, List.append_nil, receiveResumeData]
      split
      · exact ⟨rfl, tracks_kept_refl _ _⟩
      · exact ⟨rfl, tracks_kept_update _ _ _ _ fun _ => rfl⟩
  | transfer task =>
      obtain ⟨_, _, rfl⟩ := transfer_running catalogue documentsPath s next task taken
      exact ⟨(List.append_nil _).symm, tracks_kept_refl _ _⟩
  | finish task finish =>
      obtain ⟨url, held, rfl⟩ := finish_finishing catalogue documentsPath s next task finish taken
      have tracks : finishedTrack s task = ((s.activeDownloads url).bind (read s.downloads)).map Download.track := by
        rw [finishedTrack, held]
        exact Option.map_bind.symm
      refine ⟨?_, tracks_kept_refl _ _⟩
      rw [dispatched, tracks, didFinishDownloading]
      cases (s.activeDownloads url).bind (read s.downloads) with
      | none => rfl
      | some download => rfl

end Downloads

section Reloads

theorem catalogue_kept (before after : Results) (track : TrackRef)
    (same : read after.tracks track = read before.tracks track) : catalogue after track = catalogue before track := by
  rw [catalogue, same]
  rfl

theorem parsed_listed (results : Results) (search : Search.State) (listed : Listed results)
    (indexed : Indexed search.service.tracks) : Listed (tracksParsed results search) := by
  have longer : fresh results.tracks ≤ fresh (tracksParsed results search).tracks := by
    have grown : (tracksParsed results search).tracks.length = _ := List.length_append
    exact Nat.le_trans (Nat.le_add_right _ _) (Nat.le_of_eq grown.symm)
  refine ⟨?_, ?_, ?_, ?_, ?_, ?_, ?_⟩
  · refine numbered_rows results.tracks (results.answers + 1) search.service.tracks indexed ?_
    exact fun track answer object present => Nat.lt_succ_of_le (listed.past track answer object present)
  · exact rows_of_numbered results.tracks results.searchResults (results.answers + 1) results.shown
      search.service.tracks (Nat.ne_of_lt (Nat.lt_succ_of_le listed.older)) listed.shown
  · intro track answer object present
    cases numbered_cases results.tracks (results.answers + 1) answer search.service.tracks track object present with
    | inl old => exact Nat.le_succ_of_le (listed.past track answer object old)
    | inr new => exact Nat.le_of_eq new.1
  · exact Nat.le_succ_of_le listed.older
  · exact fun ref download present => Nat.lt_of_lt_of_le (listed.known ref download present) longer
  · exact fun track member => Nat.lt_of_lt_of_le (listed.finished track member) longer
  · refine listed.reloads.trans (List.map_congr_left fun track member => ?_)
    have same := numbered_old results.tracks (results.answers + 1) search.service.tracks track
      (listed.finished track member)
    rw [catalogue_kept results (tracksParsed results search) track same]

theorem searched_listed (system : Search.System) (results : Results) (event : Search.Event) (search : Search.State)
    (listed : Listed results) (taken : Search.step system results.search event = some search) :
    Listed (searched results search event) := by
  have same : Listed { results with search := search } :=
    ⟨listed.parsed, listed.shown, listed.past, listed.older, listed.known, listed.finished, listed.reloads⟩
  cases event with
  | complete =>
      rw [searched]
      split
      · rename_i parsing
        exact parsed_listed results search listed (parsed_indexed system results.search search parsing taken)
      · exact same
  | «show» =>
      exact ⟨listed.parsed, listed.parsed, listed.past, Nat.le_refl _, listed.known, listed.finished, listed.reloads⟩
  | tap text => exact same
  | respond task reply => exact same
  | acknowledge task description => exact same

theorem downloads_listed (results : Results) (downloads : State) (finished : List TrackRef) (tapped : TrackRef → Prop)
    (listed : Listed results) (kept : TracksKept results.downloads.downloads downloads.downloads tapped)
    (there : ∀ track, tapped track → track < fresh results.tracks)
    (known : ∀ track ∈ finished, track < fresh results.tracks)
    (reloads : downloads.reloads = finished.map fun track => (catalogue results track).index) :
    Listed { results with downloads := downloads, finishedTracks := finished } := by
  refine ⟨listed.parsed, listed.shown, listed.past, listed.older, ?_, known, reloads⟩
  intro ref download present
  cases kept ref download present with
  | inl old =>
      obtain ⟨before, held, same⟩ := old
      exact same ▸ listed.known ref before held
  | inr new => exact there download.track new

theorem row_known (results : Results) (listed : Listed results) (row : Nat) (track : TrackRef)
    (found : results.searchResults[row]? = some track) : track < fresh results.tracks := by
  obtain ⟨object, present, _⟩ := (listed.shown row track).mp found
  exact read_before_fresh _ _ _ present

theorem finished_track_known (results : Results) (listed : Listed results) (event : Event) (track : TrackRef)
    (member : track ∈ dispatched results.downloads event) : track < fresh results.tracks := by
  cases event with
  | finish task finish =>
      obtain ⟨ref, active, tracked⟩ := Option.bind_eq_some_iff.mp (Option.mem_toList.mp member)
      obtain ⟨download, held, same⟩ := Option.map_eq_some_iff.mp tracked
      exact same ▸ listed.known ref download held
  | _ => cases member

theorem results_listed (system : Search.System) (documentsPath : URL) (results after : Results)
    (listed : Listed results) (taken : ResultsStep system documentsPath results after) : Listed after := by
  cases taken with
  | same => exact listed
  | search event search taken => exact searched_listed system results event search listed taken
  | tapped button row track found =>
      obtain ⟨reloads, kept⟩ := action_tracks (catalogue results) button results.downloads track
      refine downloads_listed results _ results.finishedTracks _ listed kept ?_ listed.finished ?_
      · exact fun tapped same => same ▸ row_known results listed row track found
      · exact reloads.trans listed.reloads
  | session event downloads passive taken =>
      obtain ⟨reloads, kept⟩ := session_tracks (catalogue results) documentsPath results.downloads downloads event
        passive taken
      have moved : sessionEnds results downloads event =
          { results with
            downloads := downloads
            finishedTracks := results.finishedTracks ++ dispatched results.downloads event } := by
        cases event with
        | finish task finish => rfl
        | _ => simp only [sessionEnds, dispatched, List.append_nil]
      rw [moved]
      refine downloads_listed results downloads _ _ listed kept (fun _ absent => absent.elim) ?_ ?_
      · intro track member
        cases List.mem_append.mp member with
        | inl old => exact listed.finished track old
        | inr new => exact finished_track_known results listed event track new
      · rw [reloads, listed.reloads, List.map_append]
  | dequeued =>
      refine ⟨listed.parsed, listed.shown, listed.past, listed.older, listed.known, ?_, ?_⟩
      · exact fun track member => listed.finished track (List.mem_of_mem_tail member)
      · have front := congrArg List.tail listed.reloads
        rw [← List.map_tail] at front
        exact front

theorem launched_listed : Listed launched.toResults := by
  have unread (track : TrackRef) (answer : Nat) (object : Track)
      (present : read launched.tracks track = some (answer, object)) : False := by
    cases (read_nil track).symm.trans present
  have noRows : RowsOf launched.tracks [] 0 := by
    intro row track
    constructor
    · intro found
      cases found
    · intro ⟨object, present, _⟩
      exact (unread track 0 object present).elim
  refine ⟨noRows, noRows, ?_, Nat.le_refl 0, ?_, ?_, rfl⟩
  · exact fun track answer object present => (unread track answer object present).elim
  · intro ref download present
    cases (read_nil ref).symm.trans present
  · exact fun track member => absurd member List.not_mem_nil

end Reloads

def AddressesTrack (vc : SearchViewController) (event : ControllerEvent) (_ : SearchViewController) : Prop :=
  ∀ reused, event = .reload reused → ∃ index track, vc.downloads.reloads.head? = some index ∧
    vc.finishedTracks.head? = some track ∧ vc.searchResults[index]? = some track

-- The results in the table are those of the answer that the finished track
-- came with.
def SameAnswer (vc : SearchViewController) (event : ControllerEvent) (_ : SearchViewController) : Prop :=
  ∀ reused track, event = .reload reused → vc.finishedTracks.head? = some track →
    (read vc.tracks track).map Prod.fst = some vc.shown

theorem next_reload (vc : SearchViewController) (listed : Listed vc.toResults) (track : TrackRef)
    (finished : vc.finishedTracks.head? = some track) :
    ∃ answer object, read vc.tracks track = some (answer, object) ∧
      vc.downloads.reloads.head? = some object.index := by
  have known : track < fresh vc.tracks := listed.finished track (List.mem_of_head? finished)
  obtain ⟨entry, present⟩ : ∃ entry, read vc.tracks track = some entry := ⟨_, List.getElem?_eq_getElem known⟩
  refine ⟨entry.1, entry.2, present, ?_⟩
  rw [listed.reloads, List.head?_map, finished, Option.map_some, catalogue, present]
  rfl

theorem reload_row_iff (vc : SearchViewController) (listed : Listed vc.toResults) (track : TrackRef)
    (finished : vc.finishedTracks.head? = some track) :
    (∃ index, vc.downloads.reloads.head? = some index ∧ vc.searchResults[index]? = some track) ↔
      (read vc.tracks track).map Prod.fst = some vc.shown := by
  obtain ⟨answer, object, present, first⟩ := next_reload vc listed track finished
  rw [first, present]
  constructor
  · intro ⟨index, same, row⟩
    obtain ⟨shown, held, _⟩ := (listed.shown index track).mp row
    rw [present] at held
    cases held
    rfl
  · intro same
    cases same
    exact ⟨object.index, rfl, (listed.shown object.index track).mpr ⟨object, present, rfl⟩⟩

theorem row_reload_step (system : Search.System) (documentsPath : URL) (vc after : SearchViewController)
    (event : ControllerEvent) (listed : Listed vc.toResults)
    (taken : controllerStep system documentsPath vc event = some after) :
    AddressesTrack vc event after ↔ SameAnswer vc event after := by
  constructor
  · intro addresses reused track same finished
    obtain ⟨index, addressed, first, head, row⟩ := addresses reused same
    cases head.symm.trans finished
    exact (reload_row_iff vc listed track finished).mp ⟨index, first, row⟩
  · intro same reused reloading
    subst reloading
    have waiting : vc.downloads.reloads ≠ [] := by
      obtain ⟨_, handled⟩ := Option.ite_none_right_eq_some.mp taken
      obtain ⟨index, rest, queue, _⟩ := reload_queued vc after reused handled
      exact queue ▸ List.cons_ne_nil index rest
    have finished : vc.finishedTracks ≠ [] := fun none => waiting (by rw [listed.reloads, none]; rfl)
    obtain ⟨track, rest, queue⟩ := List.exists_cons_of_ne_nil finished
    have head : vc.finishedTracks.head? = some track := by rw [queue]; rfl
    obtain ⟨index, first, row⟩ := (reload_row_iff vc listed track head).mpr (same reused track rfl head)
    exact ⟨index, track, first, head, row⟩

-- In every run each reload addresses the row of the finished track, exactly when
-- the answer it came with is still the one in the table.
theorem row_reload_iff (system : Search.System) (documentsPath : URL) (events : List ControllerEvent) :
    Runs.Steps (controllerStep system documentsPath) AddressesTrack launched events ↔
      Runs.Steps (controllerStep system documentsPath) SameAnswer launched events := by
  refine Runs.steps_iff (controllerStep system documentsPath) (fun vc => Listed vc.toResults) AddressesTrack SameAnswer
    ?_ ?_ launched events launched_listed
  · exact fun vc event after listed taken => row_reload_step system documentsPath vc after event listed taken
  · exact fun vc event after listed taken _ => results_listed system documentsPath vc.toResults after.toResults listed
      (controller_results system documentsPath vc after event taken)

-- A second search without results comes between the start of a download and
-- its end: the row that is reloaded does not exist.
def shorterResults : List ControllerEvent :=
  [.search (.tap (some "a")), .search (.respond 0 (.response (some [1]) (some 200))), .search .complete,
    .search .show, .configure 0 0, .tap .download 0 1, .search (.tap (some "b")),
    .search (.respond 1 (.response (some []) (some 200))), .search .complete, .search .show, .transfer 0,
    .finish 0 (sampleFinish "song.m4a")]

theorem stale_row_reloaded :
    ¬ Runs.Steps (controllerStep Search.sampleSystem sampleDocuments) AddressesTrack launched
      (shorterResults ++ [.reload 2]) := by
  intro all
  have last := Runs.steps_after (controllerStep Search.sampleSystem sampleDocuments) AddressesTrack launched _
    shorterResults [.reload 2] rfl all
  obtain ⟨index, track, first, finished, row⟩ := (last _ rfl).1 2 rfl
  cases first
  cases row

end CultivationMotain.HalfTunes

import CultivationMotain.HalfTunes.LatestSearch
import CultivationMotain.HalfTunes.SearchViewController
import CultivationMotain.HalfTunes.StoredPreviews

set_option autoImplicit false

namespace CultivationMotain.HalfTunes

open Foundation ObjectHeap

def Active (s : State) (ref : Ref) : Prop := ∃ url, s.activeDownloads url = some ref

structure Balanced (vc : SearchViewController) : Prop where
  once : vc.observers.Nodup
  active : ∀ cell ref, (cell, ref) ∈ vc.observers → Active vc.downloads ref
  removed : vc.trapped ≠ some .notObserving

-- The row that an event has configured for a cell with the Downloads of before.
def configures (vc : SearchViewController) : ControllerEvent → Option (Cell × Nat)
  | .tap .pause cell reused => (vc.displayed.lookup cell).map fun row => (reused, row)
  | .tap .resume cell reused => (vc.displayed.lookup cell).map fun row => (reused, row)
  | .reload reused =>
      vc.downloads.reloads.head?.bind fun row =>
        if vc.displayed.any fun place => place.2 == row then some (reused, row) else none
  | .configure cell row => some (cell, row)
  | _ => none

def rowDownload (results : Results) (row : Nat) : Option Ref :=
  results.searchResults[row]?.bind (activeDownload results)

def leaves (vc : SearchViewController) : ControllerEvent → Option Ref
  | .tap .download cell _ => (vc.displayed.lookup cell).bind (rowDownload vc.toResults)
  | .tap .cancel cell _ => (vc.displayed.lookup cell).bind (rowDownload vc.toResults)
  | .finish task _ => ((read vc.downloads.tasks task).map DownloadTask.url).bind vc.downloads.activeDownloads
  | _ => none

-- No cell is configured again with a Download, and no Download that a cell was
-- configured with leaves.
structure ConfiguredOnce (vc : SearchViewController) (event : ControllerEvent) (_ : SearchViewController) : Prop where
  again : ∀ cell row ref, configures vc event = some (cell, row) → rowDownload vc.toResults row = some ref →
    (cell, ref) ∉ vc.configured
  kept : ∀ cell ref, leaves vc event = some ref → (cell, ref) ∉ vc.configured

structure Entries (activeDownloads : URL → Option Ref) (bound : Nat) : Prop where
  known : ∀ url ref, activeDownloads url = some ref → ref < bound
  apart : ∀ url other ref, activeDownloads url = some ref → activeDownloads other = some ref → url = other

theorem entries_removed (activeDownloads : URL → Option Ref) (bound : Nat) (url : URL)
    (entries : Entries activeDownloads bound) : Entries (Function.update activeDownloads url none) bound := by
  have kept (place : URL) (ref : Ref) (active : Function.update activeDownloads url none place = some ref) :
      activeDownloads place = some ref := by
    by_cases same : place = url
    · rw [same, Function.update_self] at active
      cases active
    · rwa [Function.update_of_ne same] at active
  exact ⟨fun place ref active => entries.known place ref (kept place ref active),
    fun place other ref first second => entries.apart place other ref (kept place ref first) (kept other ref second)⟩

theorem entries_started (activeDownloads : URL → Option Ref) (bound : Nat) (url : URL)
    (entries : Entries activeDownloads bound) :
    Entries (Function.update activeDownloads url (some bound)) (bound + 1) := by
  have cases (place : URL) (ref : Ref) (active : Function.update activeDownloads url (some bound) place = some ref) :
      place = url ∧ ref = bound ∨ ref < bound ∧ activeDownloads place = some ref := by
    by_cases same : place = url
    · rw [same, Function.update_self] at active
      exact .inl ⟨same, (Option.some.inj active).symm⟩
    · rw [Function.update_of_ne same] at active
      exact .inr ⟨entries.known place ref active, active⟩
  refine ⟨fun place ref active => ?_, fun place other ref first second => ?_⟩
  · cases cases place ref active with
    | inl new => exact new.2 ▸ Nat.lt_succ_self bound
    | inr old => exact Nat.lt_succ_of_lt old.1
  · cases cases place ref first with
    | inl new =>
        cases cases other ref second with
        | inl also => exact new.1.trans also.1.symm
        | inr old => exact absurd new.2 (Nat.ne_of_lt old.1)
    | inr old =>
        cases cases other ref second with
        | inl new => exact absurd new.2 (Nat.ne_of_lt old.1)
        | inr also => exact entries.apart place other ref old.2 also.2

theorem active_replaced (s after : State) (url : URL) (value : Option Ref) (bound : Nat) (ref : Ref)
    (entries : Entries s.activeDownloads bound) (active : Active s ref) (different : value ≠ some ref)
    (replaced : after.activeDownloads = Function.update s.activeDownloads url value) :
    Active after ref ↔ s.activeDownloads url ≠ some ref := by
  rw [Active, replaced]
  constructor
  · intro ⟨place, still⟩ left
    by_cases same : place = url
    · rw [same, Function.update_self] at still
      exact different still
    · rw [Function.update_of_ne same] at still
      exact same (entries.apart place url ref still left)
  · intro stays
    obtain ⟨place, there⟩ := active
    refine ⟨place, ?_⟩
    rw [Function.update_of_ne]
    · exact there
    · intro same
      exact stays (same ▸ there)

section Actions

variable (catalogue : TrackRef → Track)

theorem start_entries (s : State) (track : TrackRef) :
    (startDownload catalogue s track).activeDownloads =
        Function.update s.activeDownloads (catalogue track).previewURL (some (fresh s.downloads)) ∧
      fresh (startDownload catalogue s track).downloads = fresh s.downloads + 1 :=
  ⟨rfl, fresh_alloc _ _⟩

theorem pause_entries (s : State) (track : TrackRef) :
    (pauseDownload catalogue s track).activeDownloads = s.activeDownloads ∧
      fresh (pauseDownload catalogue s track).downloads = fresh s.downloads := by
  rw [pauseDownload]
  split
  · exact ⟨rfl, rfl⟩
  · split
    · dsimp only
      split
      · exact ⟨rfl, fresh_update _ _ _⟩
      · exact ⟨rfl, fresh_update _ _ _⟩
    · exact ⟨rfl, rfl⟩

theorem resume_entries (s : State) (track : TrackRef) :
    (resumeDownload catalogue s track).activeDownloads = s.activeDownloads ∧
      fresh (resumeDownload catalogue s track).downloads = fresh s.downloads := by
  rw [resumeDownload]
  dsimp only
  split
  · exact ⟨rfl, rfl⟩
  · split
    · exact ⟨rfl, rfl⟩
    · exact ⟨rfl, fresh_update _ _ _⟩

theorem cancel_entries (s : State) (track : TrackRef) :
    (cancelDownload catalogue s track).activeDownloads =
        Function.update s.activeDownloads (catalogue track).previewURL none ∧
      fresh (cancelDownload catalogue s track).downloads = fresh s.downloads := by
  rw [cancelDownload]
  dsimp only
  split
  · rename_i missing
    exact ⟨by rw [← missing, Function.update_eq_self], rfl⟩
  · exact ⟨rfl, rfl⟩

theorem session_entries (documentsPath : URL) (s next : State) (event : Event) (passive : fromSession event)
    (taken : step catalogue documentsPath s event = some next) :
    fresh next.downloads = fresh s.downloads ∧
      match event with
      | .finish task _ =>
          ∃ url, (read s.tasks task).map DownloadTask.url = some url ∧
            next.activeDownloads = Function.update s.activeDownloads url none
      | _ => next.activeDownloads = s.activeDownloads := by
  cases event with
  | start track => exact passive.elim
  | pause track => exact passive.elim
  | resume track => exact passive.elim
  | cancel track => exact passive.elim
  | resumeData position produced =>
      cases taken
      dsimp only [receiveResumeData]
      split
      · exact ⟨rfl, rfl⟩
      · exact ⟨fresh_update _ _ _, rfl⟩
  | transfer task =>
      obtain ⟨_, _, rfl⟩ := transfer_running catalogue documentsPath s next task taken
      exact ⟨rfl, rfl⟩
  | finish task finish =>
      obtain ⟨url, held, rfl⟩ := finish_finishing catalogue documentsPath s next task finish taken
      exact ⟨rfl, url, by rw [held]; rfl, rfl⟩

end Actions

def rowPairs (results : Results) (row : Nat) (cell : Cell) : List (Cell × Ref) :=
  (rowDownload results row).toList.map fun ref => (cell, ref)

theorem row_pairs_iff (results : Results) (row : Nat) (cell other : Cell) (ref : Ref) :
    (other, ref) ∈ rowPairs results row cell ↔ other = cell ∧ rowDownload results row = some ref := by
  cases download : rowDownload results row with
  | none => simp [rowPairs, download]
  | some found => simp [rowPairs, download, eq_comm]

theorem row_pairs_single (results : Results) (row : Nat) (cell : Cell) : (rowPairs results row cell).Nodup := by
  cases download : rowDownload results row with
  | none => simp [rowPairs, download]
  | some found => simp [rowPairs, download]

-- The table's methods register observers and, without a removal, do nothing
-- else that the invariant reads.
structure Observes (vc after : SearchViewController) (pairs : List (Cell × Ref)) : Prop where
  results : after.toResults = vc.toResults
  isReload : after.isReload = vc.isReload
  observers : after.observers = vc.observers ++ pairs
  configured : after.configured = vc.configured ++ pairs
  removed : after.trapped = some .notObserving → vc.trapped = some .notObserving

-- Until a download has been started here there is none, and afterwards cells
-- end displaying without a removal.
def Unstarted (vc : SearchViewController) : Prop :=
  vc.isReload = false → ∀ url, vc.downloads.activeDownloads url = none

theorem observes_nothing (vc : SearchViewController) (displayed ending : List (Cell × Nat)) :
    Observes vc { vc with displayed := displayed, ending := ending } [] :=
  ⟨rfl, rfl, (List.append_nil _).symm, (List.append_nil _).symm, id⟩

theorem observes_trap (vc : SearchViewController) : Observes vc (trap vc .missingRow) [] :=
  ⟨rfl, rfl, (List.append_nil _).symm, (List.append_nil _).symm, fun other => by cases other⟩

theorem observes_trans (vc middle after : SearchViewController) (first second : List (Cell × Ref))
    (before : Observes vc middle first) (later : Observes middle after second) :
    Observes vc after (first ++ second) where
  results := later.results.trans before.results
  isReload := later.isReload.trans before.isReload
  observers := by rw [later.observers, before.observers, List.append_assoc]
  configured := by rw [later.configured, before.configured, List.append_assoc]
  removed := fun trapped => before.removed (later.removed trapped)

theorem cell_for_row_observes (vc : SearchViewController) (cell : Cell) (row : Nat) :
    Observes vc (cellForRowAt vc cell row) (rowPairs vc.toResults row cell) := by
  cases found : vc.searchResults[row]? with
  | none =>
      have none : rowPairs vc.toResults row cell = [] := by
        rw [rowPairs, rowDownload, found]
        rfl
      rw [cellForRowAt, found, none]
      exact observes_trap vc
  | some track =>
      have pairs : rowPairs vc.toResults row cell =
          (activeDownload vc.toResults track).toList.map fun ref => (cell, ref) := by
        rw [rowPairs, rowDownload, found]
        rfl
      rw [cellForRowAt, found, pairs]
      exact ⟨rfl, rfl, rfl, rfl, id⟩

theorem did_end_displaying_observes (vc : SearchViewController) (cell : Cell) (row : Nat) (idle : Unstarted vc) :
    Observes vc (didEndDisplaying vc cell row) [] := by
  rw [didEndDisplaying]
  split
  · exact observes_nothing vc vc.displayed vc.ending
  · rename_i first
    split
    · exact observes_trap vc
    · rename_i track _
      have missing : activeDownload vc.toResults track = none := idle (Bool.eq_false_iff.mpr first) _
      rw [missing]
      exact observes_nothing vc vc.displayed vc.ending

theorem reload_rows_observes (vc : SearchViewController) (row : Nat) (reused : Cell) (idle : Unstarted vc) :
    Observes vc (reloadRows vc row reused)
      (if vc.displayed.any fun place => place.2 == row then rowPairs vc.toResults row reused else []) := by
  rw [reloadRows]
  split
  · split
    · rename_i offScreen
      have absent : (vc.displayed.any fun place => place.2 == row) = false := by
        rw [List.any_eq_false]
        exact List.find?_eq_none.mp offScreen
      rw [absent]
      exact observes_nothing vc vc.displayed vc.ending
    · rename_i cell place onScreen
      have present : (vc.displayed.any fun place => place.2 == row) = true :=
        List.any_eq_true.mpr ⟨_, List.mem_of_find?_eq_some onScreen,
          List.find?_some (p := fun shown : Cell × Nat => shown.2 == row) onScreen⟩
      rw [present, if_pos rfl]
      have taken := observes_nothing vc (vc.displayed.erase (cell, row)) vc.ending
      have configured := cell_for_row_observes { vc with displayed := vc.displayed.erase (cell, row) } reused row
      have ended := did_end_displaying_observes
        (cellForRowAt { vc with displayed := vc.displayed.erase (cell, row) } reused row) cell row ?_
      · have all := observes_trans _ _ _ _ _ (observes_trans _ _ _ _ _ taken configured) ended
        rwa [List.nil_append, List.append_nil] at all
      · intro first url
        rw [configured.results]
        exact idle (configured.isReload.symm.trans first) url
  · rename_i beyond
    have none : rowPairs vc.toResults row reused = [] := by
      rw [rowPairs, rowDownload, List.getElem?_eq_none (Nat.not_lt.mp beyond)]
      rfl
    rw [none, ite_self]
    exact observes_trap vc

structure Wired (vc : SearchViewController) : Prop where
  entries : Entries vc.downloads.activeDownloads (fresh vc.downloads.downloads)
  idle : Unstarted vc
  history : vc.configured = vc.observers

-- What one event does: the pairs it registers and the Download it takes out.
structure Changes (vc : SearchViewController) (event : ControllerEvent) (after : SearchViewController)
    (pairs : List (Cell × Ref)) : Prop where
  wired : Wired after
  observers : after.observers = vc.observers ++ pairs
  single : pairs.Nodup
  shown : ∀ cell ref, (cell, ref) ∈ pairs → Active after.downloads ref
  removed : after.trapped ≠ some .notObserving
  stays : ∀ ref, Active vc.downloads ref → (Active after.downloads ref ↔ leaves vc event ≠ some ref)
  old : ∀ cell ref, ref < fresh vc.downloads.downloads →
    ((cell, ref) ∈ pairs ↔ ∃ row, configures vc event = some (cell, row) ∧ rowDownload vc.toResults row = some ref)

theorem active_known (vc : SearchViewController) (wired : Wired vc) (ref : Ref) (active : Active vc.downloads ref) :
    ref < fresh vc.downloads.downloads := by
  obtain ⟨url, there⟩ := active
  exact wired.entries.known url ref there

theorem balanced_iff (vc after : SearchViewController) (event : ControllerEvent) (pairs : List (Cell × Ref))
    (wired : Wired vc) (balanced : Balanced vc) (changes : Changes vc event after pairs) :
    Balanced after ↔ ConfiguredOnce vc event after := by
  have known (cell : Cell) (ref : Ref) (member : (cell, ref) ∈ vc.configured) : ref < fresh vc.downloads.downloads :=
    active_known vc wired ref (balanced.active cell ref (wired.history ▸ member))
  constructor
  · intro still
    have apart := (List.nodup_append.mp (changes.observers ▸ still.once)).2.2
    refine ⟨fun cell row ref configured download earlier => ?_, fun cell ref left earlier => ?_⟩
    · have pair := (changes.old cell ref (known cell ref earlier)).mpr ⟨row, configured, download⟩
      exact apart _ (wired.history ▸ earlier) _ pair rfl
    · have observed : (cell, ref) ∈ after.observers := by
        rw [changes.observers, ← wired.history]
        exact List.mem_append_left _ earlier
      have before := balanced.active cell ref (wired.history ▸ earlier)
      exact (changes.stays ref before).mp (still.active cell ref observed) left
  · intro once
    refine ⟨?_, ?_, changes.removed⟩
    · rw [changes.observers]
      refine List.nodup_append.mpr ⟨balanced.once, changes.single, ?_⟩
      intro pair earlier other new same
      subst same
      obtain ⟨cell, ref⟩ := pair
      rw [← wired.history] at earlier
      obtain ⟨row, configured, download⟩ := (changes.old cell ref (known cell ref earlier)).mp new
      exact once.again cell row ref configured download earlier
    · intro cell ref observed
      rw [changes.observers] at observed
      cases List.mem_append.mp observed with
      | inl earlier =>
          refine (changes.stays ref (balanced.active cell ref earlier)).mpr fun left => ?_
          exact once.kept cell ref left (wired.history ▸ earlier)
      | inr new => exact changes.shown cell ref new

theorem observed_changes (vc middle after : SearchViewController) (event : ControllerEvent)
    (pairs : List (Cell × Ref)) (wired : Wired middle) (running : middle.trapped = none)
    (same : middle.observers = vc.observers) (observes : Observes middle after pairs) (single : pairs.Nodup)
    (shown : ∀ cell ref, (cell, ref) ∈ pairs → Active middle.downloads ref)
    (stays : ∀ ref, Active vc.downloads ref → (Active middle.downloads ref ↔ leaves vc event ≠ some ref))
    (old : ∀ cell ref, ref < fresh vc.downloads.downloads →
      ((cell, ref) ∈ pairs ↔ ∃ row, configures vc event = some (cell, row) ∧ rowDownload vc.toResults row = some ref)) :
    Changes vc event after pairs where
  wired := by
    refine ⟨?_, ?_, ?_⟩
    · rw [observes.results]
      exact wired.entries
    · intro first url
      rw [observes.results]
      exact wired.idle (observes.isReload.symm.trans first) url
    · rw [observes.observers, observes.configured, wired.history]
  observers := by rw [observes.observers, same]
  single := single
  shown := by
    rw [observes.results]
    exact shown
  removed := fun trapped => by cases running.symm.trans (observes.removed trapped)
  stays := by
    rw [observes.results]
    exact stays
  old := old

theorem quiet_changes (vc after : SearchViewController) (event : ControllerEvent) (wired : Wired after)
    (running : after.trapped = none) (same : after.observers = vc.observers) (quiet : configures vc event = none)
    (stays : ∀ ref, Active vc.downloads ref → (Active after.downloads ref ↔ leaves vc event ≠ some ref)) :
    Changes vc event after [] := by
  refine observed_changes vc after after event [] wired running same (observes_nothing after after.displayed
    after.ending) List.nodup_nil (fun _ _ member => absurd member List.not_mem_nil) stays ?_
  intro cell ref _
  rw [quiet]
  exact ⟨fun member => absurd member List.not_mem_nil, fun ⟨_, absent, _⟩ => by cases absent⟩

theorem active_same (s after : State) (ref : Ref) (same : after.activeDownloads = s.activeDownloads) :
    Active after ref ↔ Active s ref := by
  rw [Active, Active, same]

theorem none_leaves (vc : SearchViewController) (event : ControllerEvent) (after : State) (ref : Ref)
    (same : after.activeDownloads = vc.downloads.activeDownloads) (nothing : leaves vc event = none)
    (active : Active vc.downloads ref) : Active after ref ↔ leaves vc event ≠ some ref := by
  rw [active_same vc.downloads after ref same, nothing]
  constructor
  · intro _ absent
    cases absent
  · exact fun _ => active

theorem row_pairs_shown (results : Results) (row : Nat) (cell other : Cell) (ref : Ref)
    (member : (other, ref) ∈ rowPairs results row cell) : Active results.downloads ref := by
  obtain ⟨_, download⟩ := (row_pairs_iff results row cell other ref).mp member
  obtain ⟨track, _, active⟩ := Option.bind_eq_some_iff.mp download
  exact ⟨_, active⟩

section Events

variable (system : Search.System) (documentsPath : URL)

theorem searched_downloads (results : Results) (search : Search.State) (event : Search.Event) :
    (searched results search event).downloads = results.downloads := by
  cases event with
  | complete =>
      rw [searched]
      split <;> rfl
  | _ => rfl

theorem search_changes (vc after : SearchViewController) (event : Search.Event) (wired : Wired vc)
    (running : vc.trapped = none) (taken : searchStep system vc event = some after) :
    Changes vc (.search event) after [] := by
  obtain ⟨search, _, rfl⟩ := Option.map_eq_some_iff.mp taken
  have downloads := searched_downloads vc.toResults search event
  have table : (reloadData vc event).isReload = vc.isReload ∧ (reloadData vc event).observers = vc.observers ∧
      (reloadData vc event).configured = vc.configured ∧ (reloadData vc event).trapped = vc.trapped := by
    cases event with
    | _ => exact ⟨rfl, rfl, rfl, rfl⟩
  obtain ⟨isReload, observers, configured, trapped⟩ := table
  refine quiet_changes vc _ _ ⟨?_, ?_, ?_⟩ (trapped.trans running) observers rfl ?_
  · dsimp only
    rw [downloads]
    exact wired.entries
  · intro first url
    dsimp only at first ⊢
    rw [downloads]
    exact wired.idle (isReload.symm.trans first) url
  · exact configured.trans (wired.history.trans observers.symm)
  · exact fun ref active => none_leaves vc (.search event) _ ref (congrArg State.activeDownloads downloads) rfl active

theorem session_changes (vc after : SearchViewController) (event : Event) (outer : ControllerEvent)
    (wired : Wired vc) (running : vc.trapped = none) (passive : fromSession event)
    (unfinished : ∀ task finish, event ≠ .finish task finish) (quiet : configures vc outer = none)
    (none : leaves vc outer = none) (taken : sessionStep documentsPath vc event = some after) :
    Changes vc outer after [] := by
  obtain ⟨downloads, stepped, rfl⟩ := Option.map_eq_some_iff.mp taken
  obtain ⟨count, kept⟩ := session_entries (catalogue vc.toResults) documentsPath vc.downloads downloads event passive
    stepped
  have active : downloads.activeDownloads = vc.downloads.activeDownloads := by
    cases event with
    | finish task finish => exact absurd rfl (unfinished task finish)
    | _ => exact kept
  have ended : (sessionEnds vc.toResults downloads event).downloads = downloads := by
    cases event with
    | _ => rfl
  refine quiet_changes vc _ outer ⟨?_, ?_, wired.history⟩ running rfl quiet ?_
  · dsimp only
    rw [ended, active, count]
    exact wired.entries
  · intro first url
    dsimp only
    rw [ended, active]
    exact wired.idle first url
  · intro ref there
    dsimp only
    rw [ended]
    exact none_leaves vc outer downloads ref active none there

theorem finish_changes (vc after : SearchViewController) (task : Ref) (finish : Finish) (wired : Wired vc)
    (running : vc.trapped = none) (taken : sessionStep documentsPath vc (.finish task finish) = some after) :
    Changes vc (.finish task finish) after [] := by
  obtain ⟨downloads, stepped, rfl⟩ := Option.map_eq_some_iff.mp taken
  obtain ⟨count, url, named, removed⟩ := session_entries (catalogue vc.toResults) documentsPath vc.downloads downloads
    (.finish task finish) trivial stepped
  have left : leaves vc (.finish task finish) = vc.downloads.activeDownloads url := by
    rw [leaves, named]
    rfl
  refine quiet_changes vc _ _ ⟨?_, ?_, wired.history⟩ running rfl rfl ?_
  · dsimp only [sessionEnds]
    rw [removed, count]
    exact entries_removed _ _ url wired.entries
  · intro first place
    dsimp only [sessionEnds]
    rw [removed]
    by_cases same : place = url
    · rw [same, Function.update_self]
    · rw [Function.update_of_ne same]
      exact wired.idle first place
  · intro ref there
    rw [left]
    exact active_replaced vc.downloads downloads url none _ ref wired.entries there (by simp) removed

theorem configure_changes (vc : SearchViewController) (cell : Cell) (row : Nat) (wired : Wired vc)
    (running : vc.trapped = none) :
    Changes vc (.configure cell row) (cellForRowAt vc cell row) (rowPairs vc.toResults row cell) := by
  refine observed_changes vc vc _ _ _ wired running rfl (cell_for_row_observes vc cell row)
    (row_pairs_single _ _ _) (row_pairs_shown vc.toResults row cell) ?_ ?_
  · exact fun ref active => none_leaves vc _ vc.downloads ref rfl rfl active
  · intro other ref _
    rw [row_pairs_iff]
    constructor
    · intro ⟨same, download⟩
      exact ⟨row, by rw [same]; rfl, download⟩
    · intro ⟨place, configured, download⟩
      cases configured
      exact ⟨rfl, download⟩

theorem end_displaying_changes (vc after : SearchViewController) (cell : Cell) (row : Nat) (wired : Wired vc)
    (running : vc.trapped = none) (taken : endDisplaying vc cell row = some after) :
    Changes vc (.endDisplaying cell row) after [] := by
  have ended (displayed ending : List (Cell × Nat)) : Changes vc (.endDisplaying cell row)
      (didEndDisplaying { vc with displayed := displayed, ending := ending } cell row) [] := by
    refine observed_changes vc { vc with displayed := displayed, ending := ending } _ _ []
      ⟨wired.entries, wired.idle, wired.history⟩ running rfl
      (did_end_displaying_observes { vc with displayed := displayed, ending := ending } cell row wired.idle)
      List.nodup_nil (fun _ _ member => absurd member List.not_mem_nil) ?_ ?_
    · exact fun ref active => none_leaves vc _ vc.downloads ref rfl rfl active
    · exact fun _ _ _ => ⟨fun member => absurd member List.not_mem_nil, fun ⟨_, absent, _⟩ => by cases absent⟩
  rw [endDisplaying] at taken
  split at taken
  · cases taken
    exact ended vc.displayed (vc.ending.erase (cell, row))
  · split at taken
    · cases taken
      exact ended (vc.displayed.erase (cell, row)) vc.ending
    · cases taken

theorem reload_changes (vc after : SearchViewController) (reused : Cell) (wired : Wired vc)
    (running : vc.trapped = none) (taken : reloadFinished vc reused = some after) :
    ∃ pairs, Changes vc (.reload reused) after pairs := by
  obtain ⟨row, rest, queue, rfl⟩ := reload_queued vc after reused taken
  refine ⟨_, observed_changes vc { vc with toResults := reloadDequeued vc.toResults } _ _ _
    ⟨wired.entries, wired.idle, wired.history⟩ running rfl
    (reload_rows_observes { vc with toResults := reloadDequeued vc.toResults } row reused wired.idle) ?_ ?_ ?_ ?_⟩
  · split
    · exact row_pairs_single _ _ _
    · exact List.nodup_nil
  · intro cell ref member
    split at member
    · exact row_pairs_shown _ row reused cell ref member
    · exact absurd member List.not_mem_nil
  · exact fun ref active => none_leaves vc _ vc.downloads ref rfl rfl active
  · intro cell ref _
    have first : configures vc (.reload reused) =
        if vc.displayed.any fun place => place.2 == row then some (reused, row) else none := by
      rw [configures, queue]
      rfl
    rw [first]
    split
    · rw [row_pairs_iff]
      constructor
      · rintro ⟨same, download⟩
        exact ⟨row, by rw [same], download⟩
      · rintro ⟨place, configured, download⟩
        cases configured
        exact ⟨rfl, download⟩
    · refine ⟨fun member => absurd member List.not_mem_nil, ?_⟩
      rintro ⟨_, absent, _⟩
      cases absent

theorem row_download_tapped (vc : SearchViewController) (row : Nat) (track : TrackRef)
    (found : vc.searchResults[row]? = some track) (downloads : State) :
    rowDownload { vc.toResults with downloads := downloads } row =
      downloads.activeDownloads (catalogue vc.toResults track).previewURL := by
  rw [rowDownload, found]
  rfl

theorem tapped_changes (vc : SearchViewController) (event : ControllerEvent) (cell reused : Cell) (row : Nat)
    (track : TrackRef) (downloads : State) (isReload : Bool) (wired : Wired vc) (running : vc.trapped = none)
    (shown : vc.displayed.lookup cell = some row) (found : vc.searchResults[row]? = some track)
    (entries : Entries downloads.activeDownloads (fresh downloads.downloads))
    (idle : isReload = false → ∀ url, downloads.activeDownloads url = none)
    (stays : ∀ ref, Active vc.downloads ref → (Active downloads ref ↔ leaves vc event ≠ some ref))
    (old : ∀ other ref, ref < fresh vc.downloads.downloads →
      (other = reused ∧ downloads.activeDownloads (catalogue vc.toResults track).previewURL = some ref ↔
        ∃ place, configures vc event = some (other, place) ∧ rowDownload vc.toResults place = some ref)) :
    ∃ pairs, Changes vc event (reloadRows { vc with downloads := downloads, isReload := isReload } row reused)
      pairs := by
  have onScreen : (vc.displayed.any fun place => place.2 == row) = true := by
    refine List.any_eq_true.mpr ⟨(cell, row), ?_, beq_self_eq_true row⟩
    obtain ⟨before, after, split, _⟩ := List.lookup_eq_some_iff.mp shown
    rw [split]
    exact List.mem_append_right _ List.mem_cons_self
  have observes := reload_rows_observes { vc with downloads := downloads, isReload := isReload } row reused idle
  rw [if_pos onScreen] at observes
  refine ⟨_, observed_changes vc { vc with downloads := downloads, isReload := isReload } _ event _
    ⟨entries, idle, wired.history⟩ running rfl observes (row_pairs_single _ _ _) (row_pairs_shown _ row reused) stays
    ?_⟩
  intro other ref before
  rw [row_pairs_iff, row_download_tapped vc row track found downloads]
  exact old other ref before

theorem entry_tapped (vc : SearchViewController) (cell : Cell) (row : Nat) (track : TrackRef)
    (shown : vc.displayed.lookup cell = some row) (found : vc.searchResults[row]? = some track) :
    (vc.displayed.lookup cell).bind (rowDownload vc.toResults) =
      vc.downloads.activeDownloads (catalogue vc.toResults track).previewURL := by
  rw [shown]
  exact row_download_tapped vc row track found vc.downloads

theorem start_changes (vc : SearchViewController) (cell reused : Cell) (row : Nat) (track : TrackRef)
    (wired : Wired vc) (running : vc.trapped = none) (shown : vc.displayed.lookup cell = some row)
    (found : vc.searchResults[row]? = some track) :
    ∃ pairs, Changes vc (.tap .download cell reused) (buttonTapped .download vc row reused) pairs := by
  obtain ⟨active, count⟩ := start_entries (catalogue vc.toResults) vc.downloads track
  have unused (ref : Ref) (same : some (fresh vc.downloads.downloads) = some ref) :
      ¬ ref < fresh vc.downloads.downloads := by
    rw [← Option.some.inj same]
    exact Nat.lt_irrefl _
  rw [button_tapped_row vc .download row reused track found]
  refine tapped_changes vc _ cell reused row track _ _ wired running shown found ?_ ?_ ?_ ?_
  · rw [action, active, count]
    exact entries_started _ _ _ wired.entries
  · intro first
    rw [decide_eq_true rfl, Bool.or_true] at first
    cases first
  · intro ref there
    rw [leaves, entry_tapped vc cell row track shown found]
    exact active_replaced vc.downloads _ _ _ _ ref wired.entries there
      (fun same => unused ref same (active_known vc wired ref there)) active
  · intro other ref known
    rw [action, active, Function.update_self]
    exact ⟨fun ⟨_, same⟩ => absurd known (unused ref same), fun ⟨_, absent, _⟩ => by cases absent⟩

-- A pause or a resume leaves the entries alone; the cell that takes the row is
-- configured with the Download that is there.
theorem kept_changes (vc : SearchViewController) (button : Button) (cell reused : Cell) (row : Nat) (track : TrackRef)
    (wired : Wired vc) (running : vc.trapped = none) (shown : vc.displayed.lookup cell = some row)
    (found : vc.searchResults[row]? = some track) (notFirst : button ≠ .download)
    (active : (action button (catalogue vc.toResults) vc.downloads track).activeDownloads =
      vc.downloads.activeDownloads)
    (count : fresh (action button (catalogue vc.toResults) vc.downloads track).downloads = fresh vc.downloads.downloads)
    (nothing : leaves vc (.tap button cell reused) = none)
    (configured : configures vc (.tap button cell reused) = (vc.displayed.lookup cell).map fun row => (reused, row)) :
    ∃ pairs, Changes vc (.tap button cell reused) (buttonTapped button vc row reused) pairs := by
  have before := row_download_tapped vc row track found vc.downloads
  rw [button_tapped_row vc button row reused track found]
  refine tapped_changes vc _ cell reused row track _ _ wired running shown found ?_ ?_ ?_ ?_
  · rw [active, count]
    exact wired.entries
  · rw [active, decide_eq_false notFirst, Bool.or_false]
    exact wired.idle
  · exact fun ref there => none_leaves vc _ _ ref active nothing there
  · intro other ref _
    rw [active, configured, shown]
    constructor
    · intro ⟨same, there⟩
      exact ⟨row, by rw [same]; rfl, before.trans there⟩
    · intro ⟨place, same, there⟩
      cases same
      exact ⟨rfl, before.symm.trans there⟩

theorem cancel_changes (vc : SearchViewController) (cell reused : Cell) (row : Nat) (track : TrackRef)
    (wired : Wired vc) (running : vc.trapped = none) (shown : vc.displayed.lookup cell = some row)
    (found : vc.searchResults[row]? = some track) :
    ∃ pairs, Changes vc (.tap .cancel cell reused) (buttonTapped .cancel vc row reused) pairs := by
  obtain ⟨active, count⟩ := cancel_entries (catalogue vc.toResults) vc.downloads track
  have notFirst : Button.cancel ≠ .download := by decide
  rw [button_tapped_row vc .cancel row reused track found]
  refine tapped_changes vc _ cell reused row track _ _ wired running shown found ?_ ?_ ?_ ?_
  · rw [action, active, count]
    exact entries_removed _ _ _ wired.entries
  · rw [action, active, decide_eq_false notFirst, Bool.or_false]
    intro first place
    by_cases same : place = (catalogue vc.toResults track).previewURL
    · rw [same, Function.update_self]
    · rw [Function.update_of_ne same]
      exact wired.idle first place
  · intro ref there
    rw [leaves, entry_tapped vc cell row track shown found]
    exact active_replaced vc.downloads _ _ none _ ref wired.entries there (by simp) active
  · intro other ref _
    rw [action, active, Function.update_self]
    exact ⟨fun ⟨_, absent⟩ => (by cases absent), fun ⟨_, absent, _⟩ => (by cases absent)⟩

theorem missing_row_changes (vc : SearchViewController) (button : Button) (cell reused : Cell) (row : Nat)
    (wired : Wired vc) (running : vc.trapped = none) (shown : vc.displayed.lookup cell = some row)
    (missing : vc.searchResults[row]? = none) :
    Changes vc (.tap button cell reused) (buttonTapped button vc row reused) [] := by
  have idle : rowDownload vc.toResults row = none := by
    rw [rowDownload, missing]
    rfl
  have nothing : leaves vc (.tap button cell reused) = none := by
    cases button with
    | download => rw [leaves, shown]; exact idle
    | pause => rfl
    | resume => rfl
    | cancel => rw [leaves, shown]; exact idle
  rw [button_tapped_missing vc button row reused missing]
  refine observed_changes vc vc _ _ [] wired running rfl (observes_trap vc) List.nodup_nil
    (fun _ _ member => absurd member List.not_mem_nil) (fun ref there => none_leaves vc _ _ ref rfl nothing there) ?_
  intro other ref _
  refine ⟨fun member => absurd member List.not_mem_nil, fun ⟨place, configured, there⟩ => ?_⟩
  have same : place = row := by
    cases button with
    | download => cases configured
    | pause => rw [configures, shown] at configured; cases configured; rfl
    | resume => rw [configures, shown] at configured; cases configured; rfl
    | cancel => cases configured
  rw [same, idle] at there
  cases there

theorem tap_changes (vc : SearchViewController) (button : Button) (cell reused : Cell) (row : Nat) (wired : Wired vc)
    (running : vc.trapped = none) (shown : vc.displayed.lookup cell = some row) :
    ∃ pairs, Changes vc (.tap button cell reused) (buttonTapped button vc row reused) pairs := by
  cases found : vc.searchResults[row]? with
  | none => exact ⟨[], missing_row_changes vc button cell reused row wired running shown found⟩
  | some track =>
      cases button with
      | download => exact start_changes vc cell reused row track wired running shown found
      | pause =>
          obtain ⟨active, count⟩ := pause_entries (catalogue vc.toResults) vc.downloads track
          exact kept_changes vc .pause cell reused row track wired running shown found (by decide) active count rfl rfl
      | resume =>
          obtain ⟨active, count⟩ := resume_entries (catalogue vc.toResults) vc.downloads track
          exact kept_changes vc .resume cell reused row track wired running shown found (by decide) active count rfl rfl
      | cancel => exact cancel_changes vc cell reused row track wired running shown found

theorem controller_changes (vc after : SearchViewController) (event : ControllerEvent) (wired : Wired vc)
    (taken : controllerStep system documentsPath vc event = some after) : ∃ pairs, Changes vc event after pairs := by
  have untrapped (running : vc.running = true) : vc.trapped = none := Option.isNone_iff_eq_none.mp running
  cases event with
  | search event =>
      obtain ⟨running, handled⟩ := Option.ite_none_right_eq_some.mp taken
      exact ⟨[], search_changes system vc after event wired (untrapped running) handled⟩
  | tap button cell reused =>
      obtain ⟨row, shown, running, rfl⟩ := tap_shown system documentsPath vc after button cell reused taken
      exact tap_changes vc button cell reused row wired (untrapped running) shown
  | resumeData position produced =>
      obtain ⟨running, handled⟩ := Option.ite_none_right_eq_some.mp taken
      exact ⟨[], session_changes documentsPath vc after (.resumeData position produced) _ wired (untrapped running)
        trivial (fun _ _ same => by cases same) rfl rfl handled⟩
  | transfer task =>
      obtain ⟨running, handled⟩ := Option.ite_none_right_eq_some.mp taken
      exact ⟨[], session_changes documentsPath vc after (.transfer task) _ wired (untrapped running) trivial
        (fun _ _ same => by cases same) rfl rfl handled⟩
  | finish task finish =>
      obtain ⟨running, handled⟩ := Option.ite_none_right_eq_some.mp taken
      exact ⟨[], finish_changes documentsPath vc after task finish wired (untrapped running) handled⟩
  | reload reused =>
      obtain ⟨allowed, handled⟩ := Option.ite_none_right_eq_some.mp taken
      exact reload_changes vc after reused wired (untrapped (Bool.and_eq_true_iff.mp allowed).1) handled
  | configure cell row =>
      obtain ⟨allowed, handled⟩ := Option.ite_none_right_eq_some.mp taken
      obtain rfl := Option.some.inj handled
      have running := (Bool.and_eq_true_iff.mp (Bool.and_eq_true_iff.mp allowed).1).1
      exact ⟨_, configure_changes vc cell row wired (untrapped running)⟩
  | endDisplaying cell row =>
      obtain ⟨running, handled⟩ := Option.ite_none_right_eq_some.mp taken
      exact ⟨[], end_displaying_changes vc after cell row wired (untrapped running) handled⟩

theorem launched_wired : Wired launched := by
  refine ⟨⟨?_, ?_⟩, fun _ _ => rfl, rfl⟩
  · intro url ref active
    cases active
  · intro url other ref active
    cases active

theorem launched_balanced : Balanced launched := by
  refine ⟨List.nodup_nil, ?_, fun trapped => by cases trapped⟩
  intro cell ref member
  exact absurd member List.not_mem_nil

-- In every run the observers are balanced in every state, exactly when no cell
-- is configured again with a Download and no Download that a cell was configured
-- with leaves activeDownloads.
theorem progress_observers_iff (events : List ControllerEvent) :
    Runs.Steps (controllerStep system documentsPath) (fun _ _ after => Balanced after) launched events ↔
      Runs.Steps (controllerStep system documentsPath) ConfiguredOnce launched events := by
  refine Runs.steps_iff (controllerStep system documentsPath) (fun vc => Wired vc ∧ Balanced vc) _ _ ?_ ?_ launched
    events ⟨launched_wired, launched_balanced⟩
  · intro vc event after start taken
    obtain ⟨pairs, changes⟩ := controller_changes system documentsPath vc after event start.1 taken
    exact balanced_iff vc after event pairs start.1 start.2 changes
  · intro vc event after start taken balanced
    obtain ⟨pairs, changes⟩ := controller_changes system documentsPath vc after event start.1 taken
    exact ⟨changes.wired, balanced⟩

end Events

-- One download from its start to its finish: the observer of its cell stays.
def finishedDownload : List ControllerEvent :=
  [.search (.tap (some "a")), .search (.respond 0 (.response (some [1]) (some 200))), .search .complete,
    .search .show, .configure 0 0, .tap .download 0 1, .transfer 0]

theorem observer_left_behind :
    ¬ Runs.Steps (controllerStep Search.sampleSystem sampleDocuments) (fun _ _ after => Balanced after) launched
      (finishedDownload ++ [.finish 0 (sampleFinish "song.m4a")]) := by
  intro all
  have last := Runs.steps_after (controllerStep Search.sampleSystem sampleDocuments) _ launched _ finishedDownload
    [.finish 0 (sampleFinish "song.m4a")] rfl all
  have balanced := (last _ rfl).1
  obtain ⟨url, active⟩ := balanced.active 1 0 List.mem_cons_self
  have left : Function.update (Function.update initial.activeDownloads ⟨"https://audio.example", ["song.m4a"]⟩ (some 0))
      ⟨"https://audio.example", ["song.m4a"]⟩ none url = some 0 := active
  rw [Function.update_idem] at left
  by_cases same : url = ⟨"https://audio.example", ["song.m4a"]⟩
  · rw [same, Function.update_self] at left
    cases left
  · rw [Function.update_of_ne same] at left
    cases left

end CultivationMotain.HalfTunes

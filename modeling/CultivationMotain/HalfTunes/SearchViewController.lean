import CultivationMotain.HalfTunes.DownloadObjects
import CultivationMotain.HalfTunes.QueryService

set_option autoImplicit false

namespace CultivationMotain.HalfTunes

open Foundation ObjectHeap

abbrev Cell := Nat

-- The two services and the results. A Track object is stored with the number of
-- the answer it was parsed from; parsed and searchResults are the tracks of the
-- query service and of the table, shown the number of the answer in the table.
-- finishedTracks is a ghost, the tracks behind downloads.reloads.
structure Results where
  search : Search.State
  tracks : Heap (Nat × Track)
  parsed : List TrackRef
  answers : Nat
  searchResults : List TrackRef
  shown : Nat
  downloads : State
  finishedTracks : List TrackRef

inductive Trap where
  | missingRow
  | notObserving
deriving DecidableEq, Repr

-- The cells in the rows, the ones that reloadData has taken out of them, and the
-- observers registered; configured is a ghost, the pairs of a cell and the
-- Download it was configured with.
structure SearchViewController extends Results where
  isReload : Bool
  displayed : List (Cell × Nat)
  ending : List (Cell × Nat)
  observers : List (Cell × Ref)
  configured : List (Cell × Ref)
  trapped : Option Trap

def launched : SearchViewController where
  search := Search.initial
  tracks := []
  parsed := []
  answers := 0
  searchResults := []
  shown := 0
  downloads := initial
  finishedTracks := []
  isReload := false
  displayed := []
  ending := []
  observers := []
  configured := []
  trapped := none

def noTrack : Track := ⟨"", "", ⟨"", []⟩, 0⟩

def catalogue (results : Results) (track : TrackRef) : Track :=
  ((read results.tracks track).map Prod.snd).getD noTrack

def trap (vc : SearchViewController) (reason : Trap) : SearchViewController := { vc with trapped := some reason }

def SearchViewController.running (vc : SearchViewController) : Bool := vc.trapped.isNone

section Table

def activeDownload (results : Results) (track : TrackRef) : Option Ref :=
  results.downloads.activeDownloads (catalogue results track).previewURL

def cellForRowAt (vc : SearchViewController) (cell : Cell) (row : Nat) : SearchViewController :=
  match vc.searchResults[row]? with
  | none => trap vc .missingRow
  | some track =>
      let down := (activeDownload vc.toResults track).toList.map fun ref => (cell, ref)
      { vc with
        displayed := vc.displayed ++ [(cell, row)]
        observers := vc.observers ++ down
        configured := vc.configured ++ down }

def didEndDisplaying (vc : SearchViewController) (cell : Cell) (row : Nat) : SearchViewController :=
  if vc.isReload then vc
  else
    match vc.searchResults[row]? with
    | none => trap vc .missingRow
    | some track =>
        match activeDownload vc.toResults track with
        | none => vc
        | some ref =>
            if vc.observers.contains (cell, ref) then { vc with observers := vc.observers.erase (cell, ref) }
            else trap vc .notObserving

def reloadRows (vc : SearchViewController) (row : Nat) (reused : Cell) : SearchViewController :=
  if row < vc.searchResults.length then
    match vc.displayed.find? fun place => place.2 == row with
    | none => vc
    | some (cell, _) =>
        didEndDisplaying (cellForRowAt { vc with displayed := vc.displayed.erase (cell, row) } reused row) cell row
  else trap vc .missingRow

-- A cell goes off screen, or has done so with reloadData.
def endDisplaying (vc : SearchViewController) (cell : Cell) (row : Nat) : Option SearchViewController :=
  if vc.ending.contains (cell, row) then
    some (didEndDisplaying { vc with ending := vc.ending.erase (cell, row) } cell row)
  else if vc.displayed.contains (cell, row) then
    some (didEndDisplaying { vc with displayed := vc.displayed.erase (cell, row) } cell row)
  else none

end Table

section Cells

-- A delegate method of the cells: the track of the cell's row, the service's
-- method for it, and the reload of the row.
def cellTapped (action : (TrackRef → Track) → State → TrackRef → State) (starts : Bool) (vc : SearchViewController)
    (row : Nat) (reused : Cell) : SearchViewController :=
  match vc.searchResults[row]? with
  | none => trap vc .missingRow
  | some track =>
      let downloads := action (catalogue vc.toResults) vc.downloads track
      reloadRows { vc with downloads := downloads, isReload := vc.isReload || starts } row reused

def downloadTapped := cellTapped startDownload true
def pauseTapped := cellTapped pauseDownload false
def resumeTapped := cellTapped resumeDownload false
def cancelTapped := cellTapped cancelDownload false

end Cells

section Searches

variable (system : Search.System)

def parses (search : Search.State) : Bool :=
  match search.completions with
  | (_, .response (some _) (some 200)) :: _ => true
  | _ => false

def tracksParsed (results : Results) (search : Search.State) : Results :=
  { results with
    search := search
    tracks := results.tracks ++ search.service.tracks.map fun track => (results.answers + 1, track)
    parsed := List.range' results.tracks.length search.service.tracks.length
    answers := results.answers + 1 }

def resultsShown (results : Results) (search : Search.State) : Results :=
  { results with search := search, searchResults := results.parsed, shown := results.answers }

def searched (results : Results) (search : Search.State) : Search.Event → Results
  | .complete => if parses results.search then tracksParsed results search else { results with search := search }
  | .show => resultsShown results search
  | _ => { results with search := search }

def reloadData (vc : SearchViewController) : Search.Event → SearchViewController
  | .show => { vc with displayed := [], ending := vc.ending ++ vc.displayed }
  | _ => vc

def searchStep (vc : SearchViewController) (event : Search.Event) : Option SearchViewController :=
  (Search.step system vc.search event).map fun search =>
    { reloadData vc event with toResults := searched vc.toResults search event }

end Searches

section Session

variable (documentsPath : URL)

def finishedTrack (s : State) (task : Ref) : Option TrackRef :=
  (((read s.tasks task).map DownloadTask.url).bind s.activeDownloads).bind fun ref =>
    (read s.downloads ref).map Download.track

def sessionEnds (results : Results) (downloads : State) : Event → Results
  | .finish task _ =>
      { results with
        downloads := downloads
        finishedTracks := results.finishedTracks ++ (finishedTrack results.downloads task).toList }
  | _ => { results with downloads := downloads }

def sessionStep (vc : SearchViewController) (event : Event) : Option SearchViewController :=
  (step (catalogue vc.toResults) documentsPath vc.downloads event).map fun downloads =>
    { vc with toResults := sessionEnds vc.toResults downloads event }

end Session

inductive Button where
  | download
  | pause
  | resume
  | cancel
deriving DecidableEq, Repr

def buttonTapped : Button → SearchViewController → Nat → Cell → SearchViewController
  | .download => downloadTapped
  | .pause => pauseTapped
  | .resume => resumeTapped
  | .cancel => cancelTapped

-- reload: the block that a finished download has dispatched. reused is the cell
-- that the table view dequeues if it needs one.
inductive ControllerEvent where
  | search (event : Search.Event)
  | tap (button : Button) (cell reused : Cell)
  | resumeData (position : Nat) (produced : Bool)
  | transfer (task : Ref)
  | finish (task : Ref) (finish : Finish)
  | reload (reused : Cell)
  | configure (cell : Cell) (row : Nat)
  | endDisplaying (cell : Cell) (row : Nat)

def reloadDequeued (results : Results) : Results :=
  { results with
    downloads := { results.downloads with reloads := results.downloads.reloads.tail }
    finishedTracks := results.finishedTracks.tail }

def reloadFinished (vc : SearchViewController) (reused : Cell) : Option SearchViewController :=
  match vc.downloads.reloads with
  | [] => none
  | index :: _ => some (reloadRows { vc with toResults := reloadDequeued vc.toResults } index reused)

def dequeues (vc : SearchViewController) (cell : Cell) : Bool := !(vc.displayed.map Prod.fst).contains cell

def controllerStep (system : Search.System) (documentsPath : URL) (vc : SearchViewController) :
    ControllerEvent → Option SearchViewController
  | .search event => if vc.running then searchStep system vc event else none
  | .tap button cell reused =>
      match vc.displayed.lookup cell with
      | some row => if vc.running && dequeues vc reused then some (buttonTapped button vc row reused) else none
      | none => none
  | .resumeData position produced =>
      if vc.running then sessionStep documentsPath vc (.resumeData position produced) else none
  | .transfer task => if vc.running then sessionStep documentsPath vc (.transfer task) else none
  | .finish task finish => if vc.running then sessionStep documentsPath vc (.finish task finish) else none
  | .reload reused => if vc.running && dequeues vc reused then reloadFinished vc reused else none
  | .configure cell row =>
      if vc.running && dequeues vc cell && row < vc.searchResults.length then some (cellForRowAt vc cell row) else none
  | .endDisplaying cell row => if vc.running then endDisplaying vc cell row else none

theorem trap_results (vc : SearchViewController) (reason : Trap) : (trap vc reason).toResults = vc.toResults := rfl

theorem cell_for_row_results (vc : SearchViewController) (cell : Cell) (row : Nat) :
    (cellForRowAt vc cell row).toResults = vc.toResults := by
  rw [cellForRowAt]
  split
  · exact trap_results vc _
  · rfl

theorem did_end_displaying_results (vc : SearchViewController) (cell : Cell) (row : Nat) :
    (didEndDisplaying vc cell row).toResults = vc.toResults := by
  rw [didEndDisplaying]
  split
  · rfl
  · split
    · exact trap_results vc _
    · split
      · rfl
      · split
        · rfl
        · exact trap_results vc _

theorem reload_rows_results (vc : SearchViewController) (row : Nat) (reused : Cell) :
    (reloadRows vc row reused).toResults = vc.toResults := by
  rw [reloadRows]
  split
  · split
    · rfl
    · rw [did_end_displaying_results, cell_for_row_results]
  · exact trap_results vc _

theorem end_displaying_results (vc after : SearchViewController) (cell : Cell) (row : Nat)
    (taken : endDisplaying vc cell row = some after) : after.toResults = vc.toResults := by
  rw [endDisplaying] at taken
  split at taken
  · cases taken
    exact did_end_displaying_results _ cell row
  · split at taken
    · cases taken
      exact did_end_displaying_results _ cell row
    · cases taken

def action : Button → (TrackRef → Track) → State → TrackRef → State
  | .download => startDownload
  | .pause => pauseDownload
  | .resume => resumeDownload
  | .cancel => cancelDownload

theorem button_tapped_row (vc : SearchViewController) (button : Button) (row : Nat) (reused : Cell) (track : TrackRef)
    (found : vc.searchResults[row]? = some track) :
    buttonTapped button vc row reused =
      reloadRows { vc with
        downloads := action button (catalogue vc.toResults) vc.downloads track
        isReload := vc.isReload || decide (button = .download) } row reused := by
  cases button with
  | download => simp only [buttonTapped, downloadTapped, cellTapped, found]; rfl
  | pause => simp only [buttonTapped, pauseTapped, cellTapped, found]; rfl
  | resume => simp only [buttonTapped, resumeTapped, cellTapped, found]; rfl
  | cancel => simp only [buttonTapped, cancelTapped, cellTapped, found]; rfl

theorem button_tapped_missing (vc : SearchViewController) (button : Button) (row : Nat) (reused : Cell)
    (missing : vc.searchResults[row]? = none) : buttonTapped button vc row reused = trap vc .missingRow := by
  cases button with
  | download => simp only [buttonTapped, downloadTapped, cellTapped, missing]
  | pause => simp only [buttonTapped, pauseTapped, cellTapped, missing]
  | resume => simp only [buttonTapped, resumeTapped, cellTapped, missing]
  | cancel => simp only [buttonTapped, cancelTapped, cellTapped, missing]

def fromSession : Event → Prop
  | .resumeData _ _ => True
  | .transfer _ => True
  | .finish _ _ => True
  | _ => False

inductive ResultsStep (system : Search.System) (documentsPath : URL) (results : Results) : Results → Prop where
  | same : ResultsStep system documentsPath results results
  | search (event : Search.Event) (search : Search.State)
      (taken : Search.step system results.search event = some search) :
      ResultsStep system documentsPath results (searched results search event)
  | tapped (button : Button) (row : Nat) (track : TrackRef) (found : results.searchResults[row]? = some track) :
      ResultsStep system documentsPath results
        { results with downloads := action button (catalogue results) results.downloads track }
  | session (event : Event) (downloads : State)
      (passive : fromSession event)
      (taken : step (catalogue results) documentsPath results.downloads event = some downloads) :
      ResultsStep system documentsPath results (sessionEnds results downloads event)
  | dequeued : ResultsStep system documentsPath results (reloadDequeued results)

theorem session_results (system : Search.System) (documentsPath : URL) (vc after : SearchViewController)
    (event : Event) (passive : fromSession event)
    (taken : sessionStep documentsPath vc event = some after) :
    ResultsStep system documentsPath vc.toResults after.toResults := by
  obtain ⟨downloads, stepped, rfl⟩ := Option.map_eq_some_iff.mp taken
  exact .session event downloads passive stepped

-- A button is tapped on a cell that shows a row.
theorem tap_shown (system : Search.System) (documentsPath : URL) (vc after : SearchViewController) (button : Button)
    (cell reused : Cell) (taken : controllerStep system documentsPath vc (.tap button cell reused) = some after) :
    ∃ row, vc.displayed.lookup cell = some row ∧ vc.running = true ∧ buttonTapped button vc row reused = after := by
  simp only [controllerStep] at taken
  split at taken
  · rename_i row shown
    obtain ⟨allowed, handled⟩ := Option.ite_none_right_eq_some.mp taken
    exact ⟨row, shown, (Bool.and_eq_true_iff.mp allowed).1, Option.some.inj handled⟩
  · cases taken

theorem reload_queued (vc after : SearchViewController) (reused : Cell)
    (taken : reloadFinished vc reused = some after) :
    ∃ index rest, vc.downloads.reloads = index :: rest ∧
      reloadRows { vc with toResults := reloadDequeued vc.toResults } index reused = after := by
  rw [reloadFinished] at taken
  split at taken
  · cases taken
  · rename_i index rest queue
    exact ⟨index, rest, queue, Option.some.inj taken⟩

theorem controller_results (system : Search.System) (documentsPath : URL) (vc after : SearchViewController)
    (event : ControllerEvent) (taken : controllerStep system documentsPath vc event = some after) :
    ResultsStep system documentsPath vc.toResults after.toResults := by
  cases event with
  | search event =>
      obtain ⟨_, handled⟩ := Option.ite_none_right_eq_some.mp taken
      obtain ⟨search, stepped, rfl⟩ := Option.map_eq_some_iff.mp handled
      exact .search event search stepped
  | tap button cell reused =>
      obtain ⟨row, _, _, rfl⟩ := tap_shown system documentsPath vc after button cell reused taken
      cases found : vc.searchResults[row]? with
      | none =>
          rw [button_tapped_missing vc button row reused found]
          exact .same
      | some track =>
          rw [button_tapped_row vc button row reused track found, reload_rows_results]
          exact .tapped button row track found
  | resumeData position produced =>
      obtain ⟨_, handled⟩ := Option.ite_none_right_eq_some.mp taken
      exact session_results system documentsPath vc after (.resumeData position produced) trivial handled
  | transfer task =>
      obtain ⟨_, handled⟩ := Option.ite_none_right_eq_some.mp taken
      exact session_results system documentsPath vc after (.transfer task) trivial handled
  | finish task finish =>
      obtain ⟨_, handled⟩ := Option.ite_none_right_eq_some.mp taken
      exact session_results system documentsPath vc after (.finish task finish) trivial handled
  | reload reused =>
      obtain ⟨_, handled⟩ := Option.ite_none_right_eq_some.mp taken
      obtain ⟨index, _, _, rfl⟩ := reload_queued vc after reused handled
      rw [reload_rows_results]
      exact .dequeued
  | configure cell row =>
      obtain ⟨_, handled⟩ := Option.ite_none_right_eq_some.mp taken
      obtain rfl := Option.some.inj handled
      rw [cell_for_row_results]
      exact .same
  | endDisplaying cell row =>
      obtain ⟨_, handled⟩ := Option.ite_none_right_eq_some.mp taken
      rw [end_displaying_results vc after cell row handled]
      exact .same

end CultivationMotain.HalfTunes

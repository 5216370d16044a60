import CultivationMotain.HalfTunes.Track
import CultivationMotain.Library.ObjectHeap
import CultivationMotain.Library.Runs

set_option autoImplicit false

namespace CultivationMotain.HalfTunes.Search

open Foundation ObjectHeap

-- An object is a dictionary, so it holds a key at most once.
inductive JSON where
  | null
  | bool (value : Bool)
  | number (text : String)
  | string (text : String)
  | array (elements : List JSON)
  | object (members : List (String × JSON))

def JSON.string? : JSON → Option String
  | .string text => some text
  | _ => none

def JSON.array? : JSON → Option (List JSON)
  | .array elements => some elements
  | _ => none

structure System where
  jsonObject : Bytes → Except String JSON
  parseURL : String → Option URL
  searchURL : String → Option URL

structure QueryService where
  tracks : List Track
  errorMessage : String
  dataTask : Option Ref

section Parsing

variable (system : System)

def parseTrack (index : Nat) : JSON → Option Track
  | .object trackDictionary => do
      let previewURLString ← (trackDictionary.lookup "previewUrl").bind JSON.string?
      let previewURL ← system.parseURL previewURLString
      let name ← (trackDictionary.lookup "trackName").bind JSON.string?
      let artist ← (trackDictionary.lookup "artistName").bind JSON.string?
      some ⟨name, artist, previewURL, index⟩
  | _ => none

def addTrack (state : QueryService × Nat) (trackDictionary : JSON) : QueryService × Nat :=
  match parseTrack system state.2 trackDictionary with
  | some track => ({ state.1 with tracks := state.1.tracks ++ [track] }, state.2 + 1)
  | none =>
      ({ state.1 with errorMessage := state.1.errorMessage ++ "Problem parsing trackDictionary\n" }, state.2)

-- None is the trap of response! on JSON that is not an object: the cast has
-- left response empty without an error.
def updateSearchResults (service : QueryService) (data : Bytes) : Option QueryService :=
  let emptied := { service with tracks := [] }
  match system.jsonObject data with
  | .error description =>
      some { emptied with
        errorMessage := emptied.errorMessage ++ "JSONSerialization error: " ++ description ++ "\n" }
  | .ok (.object response) =>
      match (response.lookup "results").bind JSON.array? with
      | none =>
          some { emptied with errorMessage := emptied.errorMessage ++ "Dictionary does not contain results key\n" }
      | some array => some (array.foldl (addTrack system) (emptied, 0)).1
  | .ok _ => none

end Parsing

-- cancelling: the task was cancelled and its cancellation error is to come.
-- responded: its completion handler is queued or has run.
inductive TaskState where
  | running
  | cancelling
  | responded
deriving DecidableEq, Repr

structure SearchTask where
  url : URL
  state : TaskState
deriving DecidableEq, Repr

inductive Reply where
  | failed (localizedDescription : String)
  | response (data : Option Bytes) (statusCode : Option Nat)

-- completions are on the serial delegate queue, blocks on the main queue, and
-- answered is a ghost, the searches whose block has run.
structure State where
  service : QueryService
  tasks : Heap SearchTask
  completions : List (Ref × Reply)
  blocks : List Ref
  searchResults : List Track
  networkActivityIndicatorVisible : Bool
  answered : List Ref

def initial : State where
  service := ⟨[], "", none⟩
  tasks := []
  completions := []
  blocks := []
  searchResults := []
  networkActivityIndicatorVisible := false
  answered := []

section Searching

variable (system : System)

def cancelTask (task : SearchTask) : SearchTask :=
  if task.state = .running then { task with state := .cancelling } else task

def cancelDataTask (s : State) : Heap SearchTask :=
  match s.service.dataTask with
  | none => s.tasks
  | some task => update s.tasks task cancelTask

def getSearchResults (s : State) (searchTerm : String) : State :=
  let tasks := cancelDataTask s
  match system.searchURL searchTerm with
  | none => { s with tasks := tasks }
  | some url =>
      { s with
        tasks := alloc tasks ⟨url, .running⟩
        service := { s.service with dataTask := some (fresh tasks) } }

def searchBarSearchButtonClicked (s : State) (text : Option String) : State :=
  match text with
  | none => s
  | some searchText =>
      if searchText = "" then s
      else getSearchResults system { s with networkActivityIndicatorVisible := true } searchText

def complete (s : State) (task : Ref) : Reply → Option State
  | .failed description =>
      some { s with
        service := { s.service with
          errorMessage := s.service.errorMessage ++ "Data task error: " ++ description ++ "\n"
          dataTask := none } }
  | .response (some data) (some 200) =>
      (updateSearchResults system s.service data).map fun service =>
        { s with
          service := { service with dataTask := none }
          blocks := s.blocks ++ [task] }
  | .response _ _ => some { s with service := { s.service with dataTask := none } }

-- The block reads the tracks when it runs, not when it was dispatched.
def showResults (s : State) (task : Ref) : State :=
  { s with
    networkActivityIndicatorVisible := false
    searchResults := s.service.tracks
    answered := task :: s.answered }

end Searching

-- A running task is responded to, a cancelled one acknowledged.
inductive Event where
  | tap (text : Option String)
  | respond (task : Ref) (reply : Reply)
  | acknowledge (task : Ref) (localizedDescription : String)
  | complete
  | show

def respond (s : State) (task : Ref) (reply : Reply) : State :=
  { s with
    tasks := update s.tasks task fun t => { t with state := .responded }
    completions := s.completions ++ [(task, reply)] }

def step (system : System) (s : State) : Event → Option State
  | .tap text => some (searchBarSearchButtonClicked system s text)
  | .respond task reply =>
      match read s.tasks task with
      | some ⟨_, .running⟩ => some (respond s task reply)
      | _ => none
  | .acknowledge task description =>
      match read s.tasks task with
      | some ⟨_, .cancelling⟩ => some (respond s task (.failed description))
      | _ => none
  | .complete =>
      match s.completions with
      | [] => none
      | (task, reply) :: rest => complete system { s with completions := rest } task reply
  | .show =>
      match s.blocks with
      | [] => none
      | task :: rest => some (showResults { s with blocks := rest } task)

end CultivationMotain.HalfTunes.Search

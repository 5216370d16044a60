import CultivationMotain.HalfTunes.Track
import CultivationMotain.Library.ObjectHeap
import CultivationMotain.Library.Runs
import Mathlib.Logic.Function.Basic

set_option autoImplicit false

namespace CultivationMotain.HalfTunes

open Foundation ObjectHeap

-- finishing: the transfer is complete and didFinishDownloadingTo is queued.
inductive TaskState where
  | running
  | finishing
  | finished
  | cancelled
deriving DecidableEq, Repr

structure DownloadTask where
  url : URL
  state : TaskState
deriving DecidableEq, Repr

structure ResumeData where
  url : URL
  task : Ref
deriving DecidableEq, Repr

structure Download where
  track : TrackRef
  dataTask : Option Ref
  resumeData : Option ResumeData
  isDownloading : Bool
deriving DecidableEq, Repr

-- resumeCallbacks are completion handlers not run yet, as the download they
-- capture and the task they were given to. received is a ghost, the bytes that
-- the last finished download of a URL brought.
structure State where
  tasks : Heap DownloadTask
  downloads : Heap Download
  activeDownloads : URL → Option Ref
  resumeCallbacks : List (Ref × Ref)
  downloaded : TrackRef → Bool
  files : URL → Option Bytes
  reloads : List Nat
  received : URL → Option Bytes

def initial : State where
  tasks := []
  downloads := []
  activeDownloads := fun _ => none
  resumeCallbacks := []
  downloaded := fun _ => false
  files := fun _ => none
  reloads := []
  received := fun _ => none

section Service

variable (catalogue : TrackRef → Track)

-- Cancelling a task whose transfer is complete does not take its finish back.
def cancelTask (task : DownloadTask) : DownloadTask :=
  if task.state = .running then { task with state := .cancelled } else task

def startDownload (s : State) (track : TrackRef) : State :=
  let previewURL := (catalogue track).previewURL
  { s with
    tasks := alloc s.tasks ⟨previewURL, .running⟩
    downloads := alloc s.downloads ⟨track, some (fresh s.tasks), none, true⟩
    activeDownloads := Function.update s.activeDownloads previewURL (some (fresh s.downloads)) }

def pauseDownload (s : State) (track : TrackRef) : State :=
  match s.activeDownloads (catalogue track).previewURL with
  | none => s
  | some ref =>
      match read s.downloads ref with
      | some ⟨_, dataTask, _, true⟩ =>
          let stopped := { s with downloads := update s.downloads ref fun d => { d with isDownloading := false } }
          match dataTask with
          | none => stopped
          | some task =>
              { stopped with
                tasks := update s.tasks task cancelTask
                resumeCallbacks := s.resumeCallbacks ++ [(ref, task)] }
      | _ => s

def cancelDownload (s : State) (track : TrackRef) : State :=
  let previewURL := (catalogue track).previewURL
  match s.activeDownloads previewURL with
  | none => s
  | some ref =>
      let tasks := match (read s.downloads ref).bind Download.dataTask with
        | none => s.tasks
        | some task => update s.tasks task cancelTask
      { s with tasks := tasks, activeDownloads := Function.update s.activeDownloads previewURL none }

def resumeDownload (s : State) (track : TrackRef) : State :=
  let previewURL := (catalogue track).previewURL
  match s.activeDownloads previewURL with
  | none => s
  | some ref =>
      match read s.downloads ref with
      | none => s
      | some download =>
          let url := (download.resumeData.map ResumeData.url).getD previewURL
          { s with
            tasks := alloc s.tasks ⟨url, .running⟩
            downloads := update s.downloads ref fun d =>
              { d with dataTask := some (fresh s.tasks), isDownloading := true } }

-- Data is missing where the transfer cannot be resumed.
def receiveResumeData (s : State) (position : Nat) (produced : Bool) : State :=
  match s.resumeCallbacks[position]? with
  | none => s
  | some (ref, task) =>
      let data := if produced then (read s.tasks task).map fun t => ⟨t.url, task⟩ else none
      { s with
        downloads := update s.downloads ref fun d => { d with resumeData := data }
        resumeCallbacks := s.resumeCallbacks.eraseIdx position }

end Service

section Delegate

variable (catalogue : TrackRef → Track) (documentsPath : URL)

def localFilePath (url : URL) : URL := documentsPath.appendingPathComponent url.lastPathComponent

structure Finish where
  location : URL
  bytes : Bytes
  removes : Bool
  copies : Bool

-- copyItem does not overwrite: it also fails on a file that was not removed.
def storeFile (files : URL → Option Bytes) (destination : URL) (finish : Finish) : (URL → Option Bytes) × Bool :=
  let removed := if finish.removes then Function.update files destination none else files
  if finish.copies && (removed destination).isNone then
    (Function.update removed destination (some finish.bytes), true)
  else (removed, false)

def didFinishDownloading (s : State) (task : Ref) (sourceURL : URL) (finish : Finish) : State :=
  let download := (s.activeDownloads sourceURL).bind (read s.downloads)
  let destination := localFilePath documentsPath finish.location
  let (files, copied) := storeFile s.files destination finish
  { s with
    tasks := update s.tasks task fun t => { t with state := .finished }
    activeDownloads := Function.update s.activeDownloads sourceURL none
    files := files
    downloaded := match download with
      | some d => if copied then Function.update s.downloaded d.track true else s.downloaded
      | none => s.downloaded
    reloads := s.reloads ++ (download.map fun d => (catalogue d.track).index).toList
    received := Function.update s.received sourceURL (some finish.bytes) }

end Delegate

inductive Event where
  | start (track : TrackRef)
  | pause (track : TrackRef)
  | resume (track : TrackRef)
  | cancel (track : TrackRef)
  | resumeData (position : Nat) (produced : Bool)
  | transfer (task : Ref)
  | finish (task : Ref) (finish : Finish)

-- The session completes a running transfer once and then queues one finish.
def step (catalogue : TrackRef → Track) (documentsPath : URL) (s : State) : Event → Option State
  | .start track => some (startDownload catalogue s track)
  | .pause track => some (pauseDownload catalogue s track)
  | .resume track => some (resumeDownload catalogue s track)
  | .cancel track => some (cancelDownload catalogue s track)
  | .resumeData position produced => some (receiveResumeData s position produced)
  | .transfer task =>
      match read s.tasks task with
      | some ⟨_, .running⟩ => some { s with tasks := update s.tasks task fun t => { t with state := .finishing } }
      | _ => none
  | .finish task finish =>
      match read s.tasks task with
      | some ⟨url, .finishing⟩ => some (didFinishDownloading catalogue documentsPath s task url finish)
      | _ => none

end CultivationMotain.HalfTunes

import CultivationMotain.HalfTunes.QueryService
import Mathlib.Data.List.Induction

set_option autoImplicit false

namespace CultivationMotain.HalfTunes.Search

open Foundation

structure Song where
  name : String
  artist : String
  previewURL : URL

variable (system : System)

def textAt (members : List (String × JSON)) (key : String) : Option String := (members.lookup key).bind JSON.string?

def songOf : JSON → Option Song
  | .object members =>
      match textAt members "previewUrl", textAt members "trackName", textAt members "artistName" with
      | some preview, some name, some artist =>
          (system.parseURL preview).map fun previewURL => ⟨name, artist, previewURL⟩
      | _, _, _ => none
  | _ => none

def Song.track (index : Nat) (song : Song) : Track := ⟨song.name, song.artist, song.previewURL, index⟩

def songs (array : List JSON) : List Song := array.filterMap (songOf system)

def malformed (array : List JSON) : List JSON := array.filter fun entry => (songOf system entry).isNone

def problems (count : Nat) : String := String.join (List.replicate count "Problem parsing trackDictionary\n")

def resultsArray (data : Bytes) : Option (List JSON) :=
  match system.jsonObject data with
  | .ok (.object response) => (response.lookup "results").bind JSON.array?
  | _ => none

structure ArrayRead (before : QueryService) (array : List JSON) (after : QueryService) : Prop where
  tracks : after.tracks = (songs system array).mapIdx Song.track
  errors : after.errorMessage = before.errorMessage ++ problems (malformed system array).length

def NothingRead (before after : QueryService) : Prop :=
  after.tracks = [] ∧ ∃ text, after.errorMessage = before.errorMessage ++ text ++ "\n"

def ResultsRead (service : QueryService) (data : Bytes) : Prop :=
  ∃ after, updateSearchResults system service data = some after ∧
    match resultsArray system data with
    | some array => ArrayRead system service array after
    | none => NothingRead service after

theorem parse_track_song (index : Nat) (entry : JSON) :
    parseTrack system index entry = (songOf system entry).map (Song.track index) := by
  cases entry with
  | object members =>
      have keys : parseTrack system index (.object members) = (textAt members "previewUrl").bind fun preview =>
          (system.parseURL preview).bind fun previewURL =>
            (textAt members "trackName").bind fun name =>
              (textAt members "artistName").bind fun artist => some ⟨name, artist, previewURL, index⟩ := rfl
      rw [keys, songOf]
      cases textAt members "previewUrl" with
      | none => rfl
      | some preview =>
          cases parsed : system.parseURL preview with
          | none =>
              cases textAt members "trackName" with
              | none => simp only [Option.bind_some, parsed, Option.bind_none, Option.map_none]
              | some name => cases textAt members "artistName" <;> simp [parsed]
          | some previewURL =>
              cases textAt members "trackName" with
              | none => simp
              | some name => cases textAt members "artistName" <;> simp [parsed, Song.track]
  | _ => rfl

theorem problems_succ (count : Nat) : problems (count + 1) = problems count ++ "Problem parsing trackDictionary\n" := by
  unfold problems
  rw [List.replicate_succ', String.join_eq_foldl, List.foldl_concat, ← String.join_eq_foldl]

theorem entries_read (array : List JSON) (service : QueryService) (empty : service.tracks = []) :
    array.foldl (addTrack system) (service, 0) =
      ({ service with
          tracks := (songs system array).mapIdx Song.track
          errorMessage := service.errorMessage ++ problems (malformed system array).length },
        (songs system array).length) := by
  induction array using List.reverseRecOn with
  | nil =>
      cases service
      cases empty
      simp [songs, malformed, problems]
  | append_singleton array entry ih =>
      rw [List.foldl_concat, ih, addTrack, parse_track_song]
      cases read : songOf system entry with
      | none =>
          have same : songs system (array ++ [entry]) = songs system array := by simp [songs, read]
          have more : (malformed system (array ++ [entry])).length = (malformed system array).length + 1 := by
            simp [malformed, read]
          simp only [Option.map_none, same, more, problems_succ, String.append_assoc]
      | some song =>
          have more : songs system (array ++ [entry]) = songs system array ++ [song] := by simp [songs, read]
          have same : malformed system (array ++ [entry]) = malformed system array := by simp [malformed, read]
          simp only [Option.map_some, same, more, List.mapIdx_concat, List.length_append, List.length_singleton]

theorem results_read_iff (service : QueryService) (data : Bytes) :
    ResultsRead system service data ↔
      ∀ value, system.jsonObject data = .ok value → ∃ members, value = .object members := by
  unfold ResultsRead resultsArray
  cases decoded : system.jsonObject data with
  | error description =>
      refine iff_of_true ⟨_, by rw [updateSearchResults, decoded], rfl, "JSONSerialization error: " ++ description, ?_⟩
        fun value absent => ?_
      · simp only [String.append_assoc]
      · cases absent
  | ok value =>
      cases value with
      | object response =>
          refine iff_of_true ?_ fun value same => ⟨response, (Except.ok.inj same).symm⟩
          simp only [updateSearchResults, decoded]
          cases (response.lookup "results").bind JSON.array? with
          | none =>
              exact ⟨_, rfl, rfl, "Dictionary does not contain results key", by simp only [String.append_assoc]; rfl⟩
          | some array =>
              refine ⟨_, rfl, ?_⟩
              rw [entries_read system array { service with tracks := [] } rfl]
              exact ⟨rfl, rfl⟩
      | _ =>
          refine iff_of_false ?_ fun objects => ?_
          · rintro ⟨after, taken, _⟩
            simp only [updateSearchResults, decoded] at taken
            cases taken
          · obtain ⟨members, same⟩ := objects _ rfl
            cases same

-- A system that reads the body "[]" only.
def emptyArraySystem : System where
  jsonObject body := if body = [0x5b, 0x5d] then .ok (.array []) else .error "unexpected"
  parseURL _ := none
  searchURL _ := none

theorem array_body_traps : ¬ ∀ service data, ResultsRead emptyArraySystem service data := by
  intro all
  obtain ⟨after, taken, _⟩ := all ⟨[], "", none⟩ [0x5b, 0x5d]
  cases taken

end CultivationMotain.HalfTunes.Search

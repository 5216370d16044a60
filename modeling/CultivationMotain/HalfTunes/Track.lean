import CultivationMotain.Foundation.URL

set_option autoImplicit false

namespace CultivationMotain.HalfTunes

open Foundation

abbrev TrackRef := Nat
abbrev Bytes := List UInt8

-- The constant fields of a Track object. Its one variable field, downloaded,
-- is part of the download state: objects are named by TrackRef there.
structure Track where
  name : String
  artist : String
  previewURL : URL
  index : Nat
deriving DecidableEq, Repr

def sampleTrack : Track := ⟨"Song", "Artist", ⟨"https://audio.example", ["preview", "song.m4a"]⟩, 0⟩

end CultivationMotain.HalfTunes

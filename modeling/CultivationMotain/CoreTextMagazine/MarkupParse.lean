import CultivationMotain.CoreTextMagazine.CTSettings
import CultivationMotain.Foundation.UTF16

set_option autoImplicit false

namespace CultivationMotain.CoreTextMagazine

open Foundation Regex

-- A search in a range that ends inside a surrogate pair may read the pair to its
-- end. performColor is none where UIColor raises.
structure Device (Color Font : Type) where
  characters : List Char → List (List Char)
  joined : ∀ text, (characters text).flatten = text
  nonempty : ∀ text, ∀ character ∈ characters text, character ≠ []
  completesPair : Bool
  wordCharacter : CodePoint → Bool
  performColor : List Char → Option (Option Color)
  black : Color
  fontNamed : List Char → CGFloat → Option Font
  systemFont : CGFloat → Font
  lineHeight : Font → CGFloat
  imageNamed : List Char → Option CGSize
  screen : Screen

inductive Attributes (Color Font : Type) where
  | text (foregroundColor : Color) (font : Font)
  | delegate (ascent descent width : CGFloat)

structure Run (Color Font : Type) where
  string : List Char
  attributes : Attributes Color Font

structure ImageRecord where
  width : CGFloat
  height : CGFloat
  filename : List Char
  location : Nat
deriving DecidableEq, Repr

structure MarkupParse (Color Font : Type) where
  color : Color
  fontName : List Char
  attributeString : List (Run Color Font)
  images : List ImageRecord

variable {Color Font : Type} (device : Device Color Font)

def MarkupParse.init : MarkupParse Color Font := ⟨device.black, "Arial".toList, [], []⟩

def MarkupParse.string (parser : MarkupParse Color Font) : List Char := parser.attributeString.flatMap Run.string

def MarkupParse.append (parser : MarkupParse Color Font) (run : Run Color Font) : MarkupParse Color Font :=
  { parser with attributeString := parser.attributeString ++ [run] }

def searchEnd (text : List Char) : Nat :=
  let count := (device.characters text).length
  let unit := fun i => (encode text)[i]?
  if device.completesPair ∧ (unit (count - 1)).any isHighSurrogate ∧ (unit count).any isLowSurrogate then count + 1
  else count

def searched (text : List Char) : List CodePoint := decode ((encode text).take (searchEnd device text))

def matchesIn (pattern : Pattern CodePoint) (text : List Char) : List NSRange :=
  findAll utf16Width pattern (searched device text)

-- None is an offset inside a Character.
def splitCharacters : Nat → List (List Char) → Option (List (List Char) × List (List Char))
  | 0, characters => some ([], characters)
  | _ + 1, [] => none
  | offset + 1, character :: rest =>
      if utf16Count character ≤ offset + 1 then
        (splitCharacters (offset + 1 - utf16Count character) rest).map fun (before, after) =>
          (character :: before, after)
      else none

-- text[text.range(from: range)], where that range is not nil.
def rangeFrom (text : List Char) (range : NSRange) : Option (List Char) := do
  let (_, rest) ← splitCharacters range.location (device.characters text)
  let (inside, _) ← splitCharacters range.length rest
  some inside.flatten

def components (separator : Char) : List Char → List Char × List (List Char)
  | [] => ([], [])
  | c :: rest =>
      let (part, parts) := components separator rest
      if c = separator then ([], part :: parts) else (c :: part, parts)

-- Strings are compared by Character, so a prefix ends at a Character boundary.
def hasPrefix (text start : List Char) : Bool :=
  (start.map fun c => [c]).isPrefixOf (device.characters text)

section Patterns

def lessThan : CodePoint := 0x3C

def greaterThan : CodePoint := 0x3E

-- <[^>]+>, over any alphabet with code points.
def tagPattern {α : Type} (code : α → CodePoint) : Pattern α :=
  .seq (.one fun c => code c == lessThan)
    (.seq (.plus fun c => code c != greaterThan) (.one fun c => code c == greaterThan))

-- (.*?)(<[^>]+>|\z) with . for any character
def chunkPattern : Pattern CodePoint := .seq (.reluctant fun _ => true) (.alt (tagPattern id) .atEnd)

def codePoints (text : String) : List CodePoint := text.toList.map Char.toNat

-- (?<=color=")\w+
def colorPattern : Pattern CodePoint := .seq (.after (codePoints "color=\"")) (.plus device.wordCharacter)

-- (?<=face=")[^"]+ and (?<=src=")[^"]+
def quotedPattern (name : String) : Pattern CodePoint :=
  .seq (.after (codePoints (name ++ "=\""))) (.plus (· != 0x22))

end Patterns

def matchTexts (pattern : Pattern CodePoint) (tag : List Char) : List (List Char) :=
  (matchesIn device pattern tag).filterMap (rangeFrom device tag)

def colorNamed (name : List Char) : Option Color :=
  (device.performColor (name ++ "Color".toList)).map fun color => color.getD device.black

def parseFont (tag : List Char) (parser : MarkupParse Color Font) : Option (MarkupParse Color Font) := do
  let color ← (matchTexts device (colorPattern device) tag).foldlM (fun _ name => colorNamed device name) parser.color
  let fontName := (matchTexts device (quotedPattern "face") tag).getLastD parser.fontName
  some { parser with color := color, fontName := fontName }

def imageSize (fileName : List Char) (font : Font) : CGSize :=
  let columnRect := (CTSettings.init device.screen).columnRect
  match device.imageNamed fileName with
  | none => ⟨columnRect.width, 0⟩
  | some image =>
      let height := columnRect.width * (image.height / image.width)
      let room := columnRect.height - device.lineHeight font
      if height > room then ⟨room * (image.width / image.height), room⟩ else ⟨columnRect.width, height⟩

def parseImage (tag : List Char) (font : Font) (parser : MarkupParse Color Font) : MarkupParse Color Font :=
  let fileName := (matchTexts device (quotedPattern "src") tag).getLastD []
  let size := imageSize device fileName font
  let record := ⟨size.width, size.height, fileName, utf16Count parser.string⟩
  { parser with images := parser.images ++ [record] }.append ⟨[' '], .delegate size.height 0 size.width⟩

def currentFont (parser : MarkupParse Color Font) : Font :=
  let size := device.screen.bounds.height / 40
  (device.fontNamed parser.fontName size).getD (device.systemFont size)

-- None is an exception.
def parseChunk (markup : List Char) (parser : MarkupParse Color Font) (chunk : NSRange) :
    Option (MarkupParse Color Font) :=
  match rangeFrom device markup chunk with
  | none => some parser
  | some part =>
      let (text, others) := components '<' part
      let font := currentFont device parser
      let appended := parser.append ⟨text, .text parser.color font⟩
      match others with
      | [] => some appended
      | tag :: _ =>
          if hasPrefix device tag "font".toList then parseFont device tag appended
          else if hasPrefix device tag "img".toList then some (parseImage device tag font appended)
          else some appended

def parseMarkup (parser : MarkupParse Color Font) (markup : List Char) : Option (MarkupParse Color Font) :=
  (matchesIn device chunkPattern markup).foldlM (parseChunk device markup) { parser with attributeString := [] }

end CultivationMotain.CoreTextMagazine

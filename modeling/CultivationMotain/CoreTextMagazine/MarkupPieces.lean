import CultivationMotain.CoreTextMagazine.MarkupParse

set_option autoImplicit false

namespace CultivationMotain.CoreTextMagazine

open Foundation Regex

variable {Color Font : Type} (device : Device Color Font)

-- What the parser looks at of a chunk: the text before the first bracket, and
-- behind it the text up to the next one.
structure Piece where
  text : List Char
  tag : Option (List Char)
deriving DecidableEq, Repr

def pieceOf (part : List Char) : Piece := ⟨(components '<' part).1, (components '<' part).2.head?⟩

def chunkPiece (markup : List Char) (chunk : NSRange) : Option Piece := (rangeFrom device markup chunk).map pieceOf

def pieces (markup : List Char) : List Piece :=
  (matchesIn device chunkPattern markup).filterMap (chunkPiece device markup)

section Tags

def fontTexts (pattern : Pattern CodePoint) (piece : Piece) : List (List Char) :=
  match piece.tag with
  | none => []
  | some tag => if hasPrefix device tag "font".toList then matchTexts device pattern tag else []

def Piece.colors (piece : Piece) : List (List Char) := fontTexts device (colorPattern device) piece

def Piece.faces (piece : Piece) : List (List Char) := fontTexts device (quotedPattern "face") piece

-- The file of an image.
def Piece.image (piece : Piece) : Option (List Char) :=
  match piece.tag with
  | none => none
  | some tag =>
      if hasPrefix device tag "img".toList then some ((matchTexts device (quotedPattern "src") tag).getLastD [])
      else none

def Piece.Known (piece : Piece) : Prop :=
  ∀ name ∈ piece.colors device, (device.performColor (name ++ "Color".toList)).isSome

def colorValue (name : List Char) : Color := (colorNamed device name).getD device.black

def fontOf (fontName : List Char) : Font :=
  let size := device.screen.bounds.height / 40
  (device.fontNamed fontName size).getD (device.systemFont size)

end Tags

section Output

variable (color : Color) (fontName : List Char)

def colorAfter (piece : Piece) : Color := ((piece.colors device).map (colorValue device)).getLastD color

def faceAfter (piece : Piece) : List Char := (piece.faces device).getLastD fontName

def Piece.runs (piece : Piece) : List (Run Color Font) :=
  ⟨piece.text, .text color (fontOf device fontName)⟩ ::
    match piece.image device with
    | none => []
    | some fileName =>
        let size := imageSize device fileName (fontOf device fontName)
        [⟨[' '], .delegate size.height 0 size.width⟩]

def Piece.records (location : Nat) (piece : Piece) : List ImageRecord :=
  match piece.image device with
  | none => []
  | some fileName =>
      let size := imageSize device fileName (fontOf device fontName)
      [⟨size.width, size.height, fileName, location + utf16Count piece.text⟩]

def Piece.string (piece : Piece) : List Char := piece.text ++ if (piece.image device).isSome then [' '] else []

def takePiece (parser : MarkupParse Color Font) (piece : Piece) : MarkupParse Color Font :=
  { color := colorAfter device parser.color piece
    fontName := faceAfter device parser.fontName piece
    attributeString := parser.attributeString ++ piece.runs device parser.color parser.fontName
    images := parser.images ++ piece.records device parser.fontName (utf16Count parser.string) }

end Output

def runsFrom (color : Color) (fontName : List Char) : List Piece → List (Run Color Font)
  | [] => []
  | piece :: rest =>
      piece.runs device color fontName ++
        runsFrom (colorAfter device color piece) (faceAfter device fontName piece) rest

def recordsFrom (fontName : List Char) (location : Nat) : List Piece → List ImageRecord
  | [] => []
  | piece :: rest =>
      piece.records device fontName location ++
        recordsFrom (faceAfter device fontName piece) (location + utf16Count (piece.string device)) rest

section Turns

theorem append_string (parser : MarkupParse Color Font) (run : Run Color Font) :
    (parser.append run).string = parser.string ++ run.string := by
  simp [MarkupParse.append, MarkupParse.string]

theorem prefixes_differ (text : List Char) (isFont : hasPrefix device text "font".toList = true) :
    hasPrefix device text "img".toList = false := by
  unfold hasPrefix at *
  cases characters : device.characters text with
  | nil => rfl
  | cons first rest =>
      rw [characters] at isFont
      have isF : ['f'] = first := beq_iff_eq.mp (Bool.and_eq_true_iff.mp isFont).1
      rw [← isF]
      rfl

theorem colors_fold (names : List (List Char)) (color : Color)
    (known : ∀ name ∈ names, (device.performColor (name ++ "Color".toList)).isSome) :
    names.foldlM (fun _ name => colorNamed device name) color =
      some ((names.map (colorValue device)).getLastD color) := by
  induction names generalizing color with
  | nil => rfl
  | cons name names ih =>
      obtain ⟨here, later⟩ := List.forall_mem_cons.mp known
      obtain ⟨answer, answered⟩ := Option.isSome_iff_exists.mp here
      have named : colorNamed device name = some (colorValue device name) := by
        simp only [colorValue, colorNamed, answered, Option.map_some, Option.getD_some]
      rw [List.foldlM_cons, named, List.map_cons, List.getLastD_cons]
      exact ih _ later

theorem colors_fold_unknown (names : List (List Char)) (color : Color)
    (unknown : ¬ ∀ name ∈ names, (device.performColor (name ++ "Color".toList)).isSome) :
    names.foldlM (fun _ name => colorNamed device name) color = none := by
  induction names generalizing color with
  | nil => exact absurd (List.forall_mem_nil _) unknown
  | cons name names ih =>
      rw [List.foldlM_cons]
      cases answered : device.performColor (name ++ "Color".toList) with
      | none =>
          simp only [colorNamed, answered, Option.map_none]
          rfl
      | some answer =>
          have later : ¬ ∀ other ∈ names, (device.performColor (other ++ "Color".toList)).isSome := fun all =>
            unknown (List.forall_mem_cons.mpr ⟨by rw [answered]; rfl, all⟩)
          simp only [colorNamed, answered, Option.map_some]
          exact ih _ later

theorem parse_font_takes (tag : List Char) (parser : MarkupParse Color Font)
    (known : ∀ name ∈ matchTexts device (colorPattern device) tag,
      (device.performColor (name ++ "Color".toList)).isSome) :
    parseFont device tag parser =
      some { parser with
        color := ((matchTexts device (colorPattern device) tag).map (colorValue device)).getLastD parser.color
        fontName := (matchTexts device (quotedPattern "face") tag).getLastD parser.fontName } := by
  rw [parseFont, colors_fold device _ _ known]
  rfl

theorem take_text (parser : MarkupParse Color Font) (piece : Piece)
    (plain : ∀ pattern, fontTexts device pattern piece = []) (noImage : piece.image device = none) :
    takePiece device parser piece =
      parser.append ⟨piece.text, .text parser.color (currentFont device parser)⟩ := by
  simp only [takePiece, colorAfter, faceAfter, Piece.colors, Piece.faces, plain, List.map_nil, List.getLastD_nil,
    Piece.runs, Piece.records, noImage, List.append_nil]
  rfl

theorem take_image (parser : MarkupParse Color Font) (piece : Piece) (tag : List Char)
    (plain : ∀ pattern, fontTexts device pattern piece = [])
    (image : piece.image device = some ((matchTexts device (quotedPattern "src") tag).getLastD [])) :
    takePiece device parser piece =
      parseImage device tag (currentFont device parser)
        (parser.append ⟨piece.text, .text parser.color (currentFont device parser)⟩) := by
  have place : utf16Count (parser.append ⟨piece.text, .text parser.color (currentFont device parser)⟩).string =
      utf16Count parser.string + utf16Count piece.text := by
    rw [append_string, utf16_count_append]
  simp only [takePiece, colorAfter, faceAfter, Piece.colors, Piece.faces, plain, List.map_nil, List.getLastD_nil,
    Piece.runs, Piece.records, image, parseImage, place]
  simp only [MarkupParse.append, List.append_assoc]
  rfl

theorem parse_chunk_takes (markup part : List Char) (parser : MarkupParse Color Font) (chunk : NSRange)
    (found : rangeFrom device markup chunk = some part) (known : (pieceOf part).Known device) :
    parseChunk device markup parser chunk = some (takePiece device parser (pieceOf part)) := by
  obtain ⟨text, others, parts⟩ : ∃ text others, components '<' part = (text, others) := ⟨_, _, rfl⟩
  have shape : pieceOf part = ⟨text, others.head?⟩ := by rw [pieceOf, parts]
  rw [shape] at known ⊢
  cases others with
  | nil =>
      simp only [parseChunk, found, parts]
      rw [take_text device parser _ (fun _ => rfl) rfl]
  | cons tag others =>
      simp only [parseChunk, found, parts]
      by_cases isFont : hasPrefix device tag "font".toList
      · have notImage : ¬ hasPrefix device tag "img".toList = true := by
          rw [prefixes_differ device tag isFont]
          exact Bool.false_ne_true
        have names : Piece.colors device ⟨text, some tag⟩ = matchTexts device (colorPattern device) tag :=
          if_pos isFont
        have faces : Piece.faces device ⟨text, some tag⟩ = matchTexts device (quotedPattern "face") tag :=
          if_pos isFont
        have noImage : Piece.image device ⟨text, some tag⟩ = none := if_neg notImage
        rw [if_pos isFont, parse_font_takes device tag _ (by rw [← names]; exact known)]
        simp only [takePiece, colorAfter, faceAfter, List.head?_cons, names, faces, Piece.runs, Piece.records, noImage,
          List.append_nil]
        rfl
      · have plain : ∀ pattern, fontTexts device pattern ⟨text, some tag⟩ = [] := fun _ => if_neg isFont
        rw [if_neg isFont]
        by_cases isImage : hasPrefix device tag "img".toList
        · rw [if_pos isImage]
          exact congrArg some (take_image device parser ⟨text, some tag⟩ tag plain (if_pos isImage)).symm
        · rw [if_neg isImage]
          exact congrArg some (take_text device parser ⟨text, some tag⟩ plain (if_neg isImage)).symm

theorem parse_chunk_raises (markup part : List Char) (parser : MarkupParse Color Font) (chunk : NSRange)
    (found : rangeFrom device markup chunk = some part) (unknown : ¬ (pieceOf part).Known device) :
    parseChunk device markup parser chunk = none := by
  obtain ⟨text, others, parts⟩ : ∃ text others, components '<' part = (text, others) := ⟨_, _, rfl⟩
  have shape : pieceOf part = ⟨text, others.head?⟩ := by rw [pieceOf, parts]
  rw [shape] at unknown
  cases others with
  | nil => exact absurd (List.forall_mem_nil _) unknown
  | cons tag others =>
      by_cases isFont : hasPrefix device tag "font".toList
      · have names : Piece.colors device ⟨text, some tag⟩ = matchTexts device (colorPattern device) tag :=
          if_pos isFont
        rw [Piece.Known, List.head?_cons, names] at unknown
        simp only [parseChunk, found, parts, if_pos isFont]
        rw [parseFont, colors_fold_unknown device _ _ unknown]
        rfl
      · have names : Piece.colors device ⟨text, some tag⟩ = [] := if_neg isFont
        rw [Piece.Known, List.head?_cons, names] at unknown
        exact absurd (List.forall_mem_nil _) unknown

theorem chunks_fold (markup : List Char) (chunks : List NSRange) (start : MarkupParse Color Font) :
    ((∀ piece ∈ chunks.filterMap (chunkPiece device markup), piece.Known device) →
        chunks.foldlM (parseChunk device markup) start =
          some ((chunks.filterMap (chunkPiece device markup)).foldl (takePiece device) start)) ∧
      ((¬ ∀ piece ∈ chunks.filterMap (chunkPiece device markup), piece.Known device) →
        chunks.foldlM (parseChunk device markup) start = none) := by
  induction chunks generalizing start with
  | nil => exact ⟨fun _ => rfl, fun unknown => absurd (List.forall_mem_nil _) unknown⟩
  | cons chunk chunks ih =>
      rw [List.foldlM_cons]
      cases found : rangeFrom device markup chunk with
      | none =>
          have skipped : chunkPiece device markup chunk = none := by rw [chunkPiece, found, Option.map_none]
          rw [List.filterMap_cons_none skipped]
          simp only [parseChunk, found]
          exact ih start
      | some part =>
          have read : chunkPiece device markup chunk = some (pieceOf part) := by
            rw [chunkPiece, found, Option.map_some]
          rw [List.filterMap_cons_some read, List.forall_mem_cons]
          by_cases here : (pieceOf part).Known device
          · rw [parse_chunk_takes device markup part start chunk found here, List.foldl_cons]
            exact ⟨fun known => (ih _).1 known.2, fun unknown => (ih _).2 fun later => unknown ⟨here, later⟩⟩
          · rw [parse_chunk_raises device markup part start chunk found here]
            exact ⟨fun known => absurd known.1 here, fun _ => rfl⟩

theorem runs_string (color : Color) (fontName : List Char) (piece : Piece) :
    (piece.runs device color fontName).flatMap Run.string = piece.string device := by
  simp only [Piece.runs, Piece.string, List.flatMap_cons]
  cases piece.image device with
  | none => rfl
  | some fileName => rfl

theorem runs_from_string (items : List Piece) (color : Color) (fontName : List Char) :
    (runsFrom device color fontName items).flatMap Run.string = items.flatMap (Piece.string device) := by
  induction items generalizing color fontName with
  | nil => rfl
  | cons piece items ih => rw [runsFrom, List.flatMap_append, runs_string, ih, List.flatMap_cons]

theorem pieces_fold (items : List Piece) (parser : MarkupParse Color Font) :
    items.foldl (takePiece device) parser =
      { color := items.foldl (colorAfter device) parser.color
        fontName := items.foldl (faceAfter device) parser.fontName
        attributeString := parser.attributeString ++ runsFrom device parser.color parser.fontName items
        images := parser.images ++ recordsFrom device parser.fontName (utf16Count parser.string) items } := by
  induction items generalizing parser with
  | nil =>
      simp only [List.foldl_nil, runsFrom, recordsFrom, List.append_nil]
  | cons piece items ih =>
      have text : (takePiece device parser piece).string = parser.string ++ piece.string device := by
        rw [← runs_string device parser.color parser.fontName piece]
        exact List.flatMap_append
      rw [List.foldl_cons, ih, text, utf16_count_append]
      simp only [takePiece, runsFrom, recordsFrom, List.foldl_cons, List.append_assoc]

end Turns

theorem parse_markup_known (parser : MarkupParse Color Font) (markup : List Char)
    (known : ∀ piece ∈ pieces device markup, piece.Known device) :
    parseMarkup device parser markup =
      some { color := (pieces device markup).foldl (colorAfter device) parser.color
             fontName := (pieces device markup).foldl (faceAfter device) parser.fontName
             attributeString := runsFrom device parser.color parser.fontName (pieces device markup)
             images := parser.images ++ recordsFrom device parser.fontName 0 (pieces device markup) } := by
  have fold := (chunks_fold device markup (matchesIn device chunkPattern markup)
    { parser with attributeString := [] }).1 known
  rw [pieces_fold] at fold
  exact fold

theorem parse_markup_raises (parser : MarkupParse Color Font) (markup : List Char)
    (unknown : ¬ ∀ piece ∈ pieces device markup, piece.Known device) : parseMarkup device parser markup = none :=
  (chunks_fold device markup (matchesIn device chunkPattern markup) { parser with attributeString := [] }).2 unknown

end CultivationMotain.CoreTextMagazine

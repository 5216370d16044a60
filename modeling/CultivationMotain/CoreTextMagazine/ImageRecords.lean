import CultivationMotain.CoreTextMagazine.MarkupText
import CultivationMotain.CoreTextMagazine.MarkupPieces
import CultivationMotain.CoreTextMagazine.ParserReuse
import CultivationMotain.CoreTextMagazine.TagAttributes
import Mathlib.Algebra.Order.Field.Rat
import Mathlib.Data.List.Infix
import Mathlib.Tactic.FieldSimp
import Mathlib.Tactic.Linarith

set_option autoImplicit false

namespace CultivationMotain.CoreTextMagazine

open Foundation Regex

variable {Color Font : Type} (device : Device Color Font)

section Domain

-- Every bracket opens a tag with no other one in it.
def Bracketed (markup : List Char) : Prop :=
  ∀ rest, ('<' :: rest) <:+ markup → ∃ tag after, tagAt Char.toNat ('<' :: rest) = some (tag, after) ∧ '<' ∉ tag.tail

-- Where no two scalars of a text share a Character, none do in a part of it.
def PartsSingle : Prop :=
  ∀ before part after, SingleUnits device (before ++ part ++ after) → SingleUnits device part

def PositivePictures : Prop :=
  ∀ fileName image, device.imageNamed fileName = some image → 0 < image.width ∧ 0 < image.height

end Domain

section Images

def Chunk.source (chunk : Chunk) : List Char := (attributeValues "src" chunk.tag.tail).getLastD []

def Chunk.faces (chunk : Chunk) : List (List Char) :=
  if "<font".toList.isPrefixOf chunk.tag then attributeValues "face" chunk.tag.tail else []

-- An image tag with its own file, the face that is set where it stands, and the
-- plain text before it.
structure ImageTag where
  source : List Char
  fontName : List Char
  before : List Char
deriving DecidableEq, Repr

def imageTagsFrom (fontName before : List Char) : List Chunk → List ImageTag
  | [] => []
  | chunk :: rest =>
      (if "<img".toList.isPrefixOf chunk.tag then [⟨chunk.source, fontName, before ++ chunk.text⟩] else []) ++
        imageTagsFrom (chunk.faces.getLastD fontName) (before ++ chunk.plain) rest

def imageTags (markup : List Char) : List ImageTag := imageTagsFrom "Arial".toList [] (chunksFrom 0 markup)

def ImageTag.lineFits (tag : ImageTag) : Prop :=
  device.lineHeight (fontOf device tag.fontName) ≤ (CTSettings.init device.screen).columnRect.height

structure Recorded (tag : ImageTag) (record : ImageRecord) : Prop where
  filename : record.filename = tag.source
  location : record.location = utf16Count tag.before
  width : record.width ≤ (CTSettings.init device.screen).columnRect.width
  height : record.height ≤
    (CTSettings.init device.screen).columnRect.height - device.lineHeight (fontOf device tag.fontName)
  ratio : ∀ image, device.imageNamed tag.source = some image → record.width * image.height = record.height * image.width

structure WellRecorded (markup : List Char) (parsed : MarkupParse Color Font) : Prop where
  text : parsed.string = plainText markup
  records : List.Forall₂ (Recorded device) (imageTags markup) parsed.images
  increasing : parsed.images.Pairwise fun first second => first.location < second.location
  placeholder : ∀ record ∈ parsed.images, ∃ before after,
    marks parsed.attributeString = before ++ (' ', .delegate record.height 0 record.width) :: after ∧
      utf16Count (before.map Prod.fst) = record.location

def RecordsImages (markup : List Char) : Prop :=
  ∃ parsed, parseMarkup device (.init device) markup = some parsed ∧ WellRecorded device markup parsed

def Chunk.piece (chunk : Chunk) : Piece := ⟨chunk.text, if chunk.tag = [] then none else some chunk.tag.tail⟩

-- Font tags name UIColor's colors only, and a column has room for the line of an
-- image without a picture.
structure Recordable (markup : List Char) : Prop where
  colors : ∀ chunk ∈ chunksFrom 0 markup, chunk.piece.Known device
  lines : ∀ tag ∈ imageTags markup, device.imageNamed tag.source = none → tag.lineFits device

end Images

section Locations

theorem records_locations (items : List Piece) (fontName : List Char) (location : Nat) :
    (∀ record ∈ recordsFrom device fontName location items, location ≤ record.location) ∧
      (recordsFrom device fontName location items).Pairwise fun first second => first.location < second.location := by
  induction items generalizing fontName location with
  | nil => exact ⟨fun _ absent => (nomatch absent), List.Pairwise.nil⟩
  | cons piece items ih =>
      obtain ⟨later, increasing⟩ := ih (faceAfter device fontName piece)
        (location + utf16Count (piece.string device))
      have onward : ∀ record ∈ recordsFrom device (faceAfter device fontName piece)
          (location + utf16Count (piece.string device)) items, location ≤ record.location := fun record member =>
        Nat.le_trans (Nat.le_add_right _ _) (later record member)
      rw [recordsFrom]
      cases image : piece.image device with
      | none =>
          have nothing : piece.records device fontName location = [] := by rw [Piece.records, image]
          rw [nothing, List.nil_append]
          exact ⟨onward, increasing⟩
      | some fileName =>
          have only : piece.records device fontName location =
              [⟨(imageSize device fileName (fontOf device fontName)).width,
                (imageSize device fileName (fontOf device fontName)).height, fileName,
                location + utf16Count piece.text⟩] := by rw [Piece.records, image]
          have size : utf16Count (piece.string device) = utf16Count piece.text + 1 := by
            rw [Piece.string, image, utf16_count_append]
            rfl
          rw [only, List.singleton_append]
          refine ⟨List.forall_mem_cons.mpr ⟨Nat.le_add_right _ _, onward⟩, List.pairwise_cons.mpr
            ⟨fun record member => ?_, increasing⟩⟩
          have bound := later record member
          simp only
          omega

theorem marks_string (runs : List (Run Color Font)) : (marks runs).map Prod.fst = runs.flatMap Run.string := by
  simp [marks, List.map_flatMap, Function.comp_def]

theorem records_placeholders (items : List Piece) (color : Color) (fontName : List Char) (location : Nat)
    (record : ImageRecord) (member : record ∈ recordsFrom device fontName location items) :
    ∃ before after,
      marks (runsFrom device color fontName items) = before ++ (' ', .delegate record.height 0 record.width) :: after ∧
        location + utf16Count (before.map Prod.fst) = record.location := by
  induction items generalizing color fontName location with
  | nil => cases member
  | cons piece items ih =>
      rw [runsFrom, marks_append]
      rcases List.mem_append.mp member with here | later
      · cases image : piece.image device with
        | none =>
            rw [Piece.records, image] at here
            cases here
        | some fileName =>
            rw [Piece.records, image] at here
            obtain rfl := List.mem_singleton.mp here
            refine ⟨piece.text.map fun c => (c, .text color (fontOf device fontName)),
              marks (runsFrom device (colorAfter device color piece) (faceAfter device fontName piece) items), ?_, ?_⟩
            · simp [marks, Piece.runs, image]
            · simp [Function.comp_def]
      · obtain ⟨before, after, parts, place⟩ :=
          ih (colorAfter device color piece) (faceAfter device fontName piece) _ later
        refine ⟨marks (piece.runs device color fontName) ++ before, after, ?_, ?_⟩
        · rw [parts, List.append_assoc]
        · rw [List.map_append, marks_string, runs_string, utf16_count_append, ← Nat.add_assoc]
          exact place

end Locations

section Chunks

theorem bracketed_behind (before after : List Char) (bracketed : Bracketed (before ++ after)) : Bracketed after :=
  fun rest behind => bracketed rest (behind.trans (List.suffix_append before after))

theorem bracket_tag (c : Char) (rest : List Char) (bracketed : Bracketed (c :: rest))
    (absent : tagAt Char.toNat (c :: rest) = none) : c ≠ '<' := by
  rintro rfl
  obtain ⟨_, _, there, _⟩ := bracketed rest (List.suffix_refl _)
  rw [absent] at there
  cases there

theorem next_tag_plain (markup text tag after : List Char) (bracketed : Bracketed markup)
    (found : nextTag Char.toNat markup = some (text, tag, after)) : '<' ∉ text ∧ '<' ∉ tag.tail := by
  induction markup generalizing text with
  | nil => cases found
  | cons c rest ih =>
      simp only [nextTag] at found
      cases here : tagAt Char.toNat (c :: rest) with
      | some pair =>
          rw [here] at found
          cases found
          obtain ⟨first, body, close, shape, whole, opens, _⟩ := (tag_at_iff _ _ _ _).mp here
          rw [shape] at whole
          obtain rfl : c = '<' := (List.cons.inj whole).1.trans (Char.toNat_inj.mp opens)
          obtain ⟨own, behind, there, plain⟩ := bracketed rest (List.suffix_refl _)
          rw [here] at there
          cases there
          exact ⟨List.not_mem_nil, plain⟩
      | none =>
          rw [here] at found
          obtain ⟨⟨more, tag_, after_⟩, later, same⟩ := Option.map_eq_some_iff.mp found
          cases same
          obtain ⟨plain, inside⟩ := ih more (bracketed_behind [c] rest bracketed) later
          refine ⟨fun member => ?_, inside⟩
          rcases List.mem_cons.mp member with first | among
          · exact bracket_tag c rest bracketed here first.symm
          · exact plain among

theorem no_tag_plain (markup : List Char) (bracketed : Bracketed markup)
    (absent : nextTag Char.toNat markup = none) : '<' ∉ markup := by
  induction markup with
  | nil => exact List.not_mem_nil
  | cons c rest ih =>
      simp only [nextTag] at absent
      cases here : tagAt Char.toNat (c :: rest) with
      | some pair =>
          rw [here] at absent
          cases absent
      | none =>
          rw [here] at absent
          intro member
          rcases List.mem_cons.mp member with first | among
          · exact bracket_tag c rest bracketed here first.symm
          · exact ih (bracketed_behind [c] rest bracketed) (Option.map_eq_none_iff.mp absent) among

theorem chunk_plain (location : Nat) (markup : List Char) (bracketed : Bracketed markup) (chunk : Chunk)
    (member : chunk ∈ chunksFrom location markup) : '<' ∉ chunk.text ∧ '<' ∉ chunk.tag.tail := by
  fun_induction chunksFrom location markup with
  | case1 location markup absent =>
      obtain rfl := List.mem_singleton.mp member
      exact ⟨no_tag_plain markup bracketed absent, List.not_mem_nil⟩
  | case2 location markup text tag after found _ ih =>
      rcases List.mem_cons.mp member with rfl | later
      · exact next_tag_plain markup text tag after bracketed found
      · obtain ⟨whole, _⟩ := next_tag_parts _ _ _ _ _ found
        exact ih (bracketed_behind (text ++ tag) after (whole ▸ bracketed)) later

theorem piece_of_chunk (text tag : List Char) (plain : '<' ∉ text) (inside : '<' ∉ tag.tail)
    (opens : tag = [] ∨ ∃ body, tag = '<' :: body) :
    pieceOf (text ++ tag) = ⟨text, if tag = [] then none else some tag.tail⟩ := by
  rcases opens with rfl | ⟨body, rfl⟩
  · rw [List.append_nil, pieceOf, components_absent '<' text plain]
    rfl
  · rw [pieceOf, components_first '<' text body plain, components_absent '<' body inside]
    rfl

theorem chunk_piece_shown (markup : List Char) (bracketed : Bracketed markup) (single : SingleUnits device markup)
    (chunk : Chunk) (member : chunk ∈ chunksFrom 0 markup) :
    chunkPiece device markup (chunk.visible (searchEnd device markup)) = some chunk.piece := by
  obtain ⟨_, widths⟩ := single_characters device markup single
  obtain ⟨before, after, whole, place, opens⟩ := chunk_position 0 markup chunk member
  obtain ⟨plain, inside⟩ := chunk_plain 0 markup bracketed chunk member
  have chunk_widths : ∀ c ∈ chunk.text ++ chunk.tag, utf16Width c.toNat = 1 := fun c among =>
    widths c (by rw [whole]; exact List.mem_append_left _ (List.mem_append_right _ among))
  have before_widths : ∀ c ∈ before, utf16Width c.toNat = 1 := fun c among =>
    widths c (by rw [whole]; exact List.mem_append_left _ (List.mem_append_left _ among))
  have length : markup.length = before.length + (chunk.text ++ chunk.tag).length + after.length := by
    rw [whole, List.length_append, List.length_append]
  rw [unit_count before before_widths, Nat.zero_add] at place
  have range : chunk.visible (searchEnd device markup) = ⟨before.length, (chunk.text ++ chunk.tag).length⟩ := by
    rw [Chunk.visible, unit_count _ chunk_widths, single_search_end device markup single, place,
      Nat.min_eq_left (by omega)]
  have part := single_range device markup single before.length (chunk.text ++ chunk.tag).length (by omega)
  have cut : (markup.drop before.length).take (chunk.text ++ chunk.tag).length = chunk.text ++ chunk.tag := by
    rw [whole, List.append_assoc, List.drop_left, List.take_left]
  rw [chunkPiece, range, part, cut, Option.map_some, piece_of_chunk _ _ plain inside opens]
  rfl

def written (piece : Piece) : Bool := piece != ⟨[], none⟩

theorem filter_map_filter {α β : Type} (items : List α) (value : α → Option β) (keep : β → Bool) :
    (items.filterMap value).filter keep = items.flatMap fun item => (value item).toList.filter keep := by
  induction items with
  | nil => rfl
  | cons item items ih => rw [filter_map_first, List.filter_append, ih, List.flatMap_cons]

theorem written_pieces (markup : List Char) (bracketed : Bracketed markup) (single : SingleUnits device markup) :
    (pieces device markup).filter written = ((chunksFrom 0 markup).map Chunk.piece).filter written := by
  have empty : ∀ location, (chunkPiece device markup ⟨location, 0⟩).toList.filter written = [] := by
    intro location
    rw [chunkPiece]
    cases found : rangeFrom device markup ⟨location, 0⟩ with
    | none => rfl
    | some part =>
        obtain rfl := range_from_empty device markup part location found
        rfl
  rw [pieces, filter_map_filter, matches_visible device markup _ empty, List.flatMap_def]
  have shown : (chunksFrom 0 markup).map (fun chunk =>
      (chunkPiece device markup (chunk.visible (searchEnd device markup))).toList.filter written) =
      (chunksFrom 0 markup).map fun chunk => [chunk.piece].filter written :=
    List.map_congr_left fun chunk member => by rw [chunk_piece_shown device markup bracketed single chunk member]; rfl
  rw [shown, ← List.flatMap_def, ← List.filterMap_eq_map, filter_map_filter]
  rfl

theorem blank_cases (piece : Piece) (blank : ¬ written piece = true) : piece = ⟨[], none⟩ := by
  rw [written, bne_iff_ne, not_not] at blank
  exact blank

theorem known_written (items : List Piece) :
    (∀ piece ∈ items.filter written, piece.Known device) ↔ ∀ piece ∈ items, piece.Known device := by
  refine ⟨fun all piece member => ?_, fun all piece member => all piece (List.mem_filter.mp member).1⟩
  by_cases some_text : written piece = true
  · exact all piece (List.mem_filter.mpr ⟨member, some_text⟩)
  · rw [blank_cases piece some_text]
    exact fun _ absent => nomatch absent

theorem records_written (items : List Piece) (fontName : List Char) (location : Nat) :
    recordsFrom device fontName location (items.filter written) = recordsFrom device fontName location items := by
  induction items generalizing fontName location with
  | nil => rfl
  | cons piece items ih =>
      by_cases some_text : written piece = true
      · rw [List.filter_cons_of_pos some_text, recordsFrom, recordsFrom, ih]
      · rw [List.filter_cons_of_neg some_text, recordsFrom, ih, blank_cases piece some_text]
        rfl

theorem string_written (items : List Piece) :
    (items.filter written).flatMap (Piece.string device) = items.flatMap (Piece.string device) := by
  induction items with
  | nil => rfl
  | cons piece items ih =>
      by_cases some_text : written piece = true
      · rw [List.filter_cons_of_pos some_text, List.flatMap_cons, List.flatMap_cons, ih]
      · rw [List.filter_cons_of_neg some_text, ih, List.flatMap_cons, blank_cases piece some_text]
        rfl

end Chunks

section Tags

-- The tag of a chunk as the parser reads it.
structure Readable (chunk : Chunk) : Prop where
  opens : chunk.tag = [] ∨ ∃ body, chunk.tag = '<' :: body
  single : SingleUnits device chunk.tag.tail

theorem readable_image (chunk : Chunk) (readable : Readable device chunk) :
    chunk.piece.image device = if "<img".toList.isPrefixOf chunk.tag then some chunk.source else none := by
  obtain ⟨location, text, tag⟩ := chunk
  obtain ⟨opens, single⟩ := readable
  rcases opens with empty | ⟨body, shape⟩
  · simp only at empty
    rw [empty]
    rfl
  · simp only at shape
    subst shape
    have images := single_prefix device body "img".toList single
    have values := value_texts device "src" body single
    simp only [Piece.image, Chunk.piece, if_neg (List.cons_ne_nil '<' body), List.tail_cons]
    rw [images, values]
    rfl

theorem readable_faces (chunk : Chunk) (readable : Readable device chunk) :
    chunk.piece.faces device = chunk.faces := by
  obtain ⟨location, text, tag⟩ := chunk
  obtain ⟨opens, single⟩ := readable
  rcases opens with empty | ⟨body, shape⟩
  · simp only at empty
    rw [empty]
    rfl
  · simp only at shape
    subst shape
    have fonts := single_prefix device body "font".toList single
    have values := value_texts device "face" body single
    simp only [Piece.faces, fontTexts, Chunk.piece, if_neg (List.cons_ne_nil '<' body), List.tail_cons]
    rw [fonts, values]
    rfl

theorem readable_string (chunk : Chunk) (readable : Readable device chunk) :
    chunk.piece.string device = chunk.plain := by
  rw [Piece.string, readable_image device chunk readable, Chunk.plain, replacedTag]
  by_cases isImage : "<img".toList.isPrefixOf chunk.tag = true
  · rw [if_pos isImage, if_pos isImage]
    rfl
  · rw [if_neg isImage, if_neg isImage]
    rfl

def ImageTag.record (tag : ImageTag) : ImageRecord :=
  let size := imageSize device tag.source (fontOf device tag.fontName)
  ⟨size.width, size.height, tag.source, utf16Count tag.before⟩

theorem records_tags (chunks : List Chunk) (readable : ∀ chunk ∈ chunks, Readable device chunk)
    (fontName before : List Char) :
    recordsFrom device fontName (utf16Count before) (chunks.map Chunk.piece) =
      (imageTagsFrom fontName before chunks).map (ImageTag.record device) := by
  induction chunks generalizing fontName before with
  | nil => rfl
  | cons chunk chunks ih =>
      obtain ⟨here, later⟩ := List.forall_mem_cons.mp readable
      have rest := ih later (chunk.faces.getLastD fontName) (before ++ chunk.plain)
      rw [utf16_count_append] at rest
      rw [List.map_cons, recordsFrom, imageTagsFrom, List.map_append, readable_string device chunk here, faceAfter,
        readable_faces device chunk here, rest, Piece.records, readable_image device chunk here]
      congr 1
      by_cases isImage : "<img".toList.isPrefixOf chunk.tag = true
      · rw [if_pos isImage, if_pos isImage]
        simp only [List.map_cons, List.map_nil, ImageTag.record, utf16_count_append]
        rfl
      · rw [if_neg isImage, if_neg isImage]
        rfl

theorem image_size_fits (fileName : List Char) (font : Font) (image : CGSize)
    (named : device.imageNamed fileName = some image) (wide : 0 < image.width) (high : 0 < image.height) :
    (imageSize device fileName font).width ≤ (CTSettings.init device.screen).columnRect.width ∧
      (imageSize device fileName font).height ≤
        (CTSettings.init device.screen).columnRect.height - device.lineHeight font ∧
      (imageSize device fileName font).width * image.height =
        (imageSize device fileName font).height * image.width := by
  simp only [imageSize, named]
  generalize (CTSettings.init device.screen).columnRect.width = column
  generalize (CTSettings.init device.screen).columnRect.height - device.lineHeight font = room
  have back : image.height / image.width * (image.width / image.height) = 1 := by
    field_simp
  by_cases tall : column * (image.height / image.width) > room
  · rw [if_pos tall]
    have narrower := mul_lt_mul_of_pos_right tall (div_pos wide high)
    rw [mul_assoc, back, mul_one] at narrower
    exact ⟨narrower.le, le_refl room, by field_simp⟩
  · rw [if_neg tall]
    exact ⟨le_refl column, not_lt.mp tall, by field_simp⟩

theorem recorded_iff (positive : PositivePictures device) (tag : ImageTag) :
    Recorded device tag (tag.record device) ↔ (device.imageNamed tag.source = none → tag.lineFits device) := by
  cases named : device.imageNamed tag.source with
  | none =>
      have size : imageSize device tag.source (fontOf device tag.fontName) =
          ⟨(CTSettings.init device.screen).columnRect.width, 0⟩ := by
        simp only [imageSize, named]
      have record : tag.record device =
          ⟨(CTSettings.init device.screen).columnRect.width, 0, tag.source, utf16Count tag.before⟩ := by
        rw [ImageTag.record, size]
      rw [record]
      constructor
      · intro recorded _
        exact sub_nonneg.mp recorded.height
      · intro fits
        refine ⟨rfl, rfl, le_refl _, sub_nonneg.mpr (fits rfl), fun image there => ?_⟩
        rw [named] at there
        cases there
  | some image =>
      obtain ⟨wide, high⟩ := positive tag.source image named
      obtain ⟨width, height, ratio⟩ :=
        image_size_fits device tag.source (fontOf device tag.fontName) image named wide high
      refine iff_of_true ⟨rfl, rfl, width, height, fun other there => ?_⟩ fun absent => nomatch absent
      obtain rfl := Option.some.inj (named.symm.trans there)
      exact ratio

end Tags

section Pieces

variable (markup : List Char)

theorem chunks_readable (parts : PartsSingle device) (single : SingleUnits device markup) :
    ∀ chunk ∈ chunksFrom 0 markup, Readable device chunk := by
  intro chunk member
  obtain ⟨before, after, whole, _, opens⟩ := chunk_position 0 markup chunk member
  refine ⟨opens, ?_⟩
  rcases opens with empty | ⟨body, shape⟩
  · rw [empty]
    exact parts [] [] markup single
  · rw [shape] at whole ⊢
    refine parts (before ++ chunk.text ++ ['<']) body after ?_
    have regrouped : before ++ chunk.text ++ ['<'] ++ body ++ after = markup := by
      rw [whole]
      simp
    rw [regrouped]
    exact single

theorem pieces_known_iff (bracketed : Bracketed markup) (single : SingleUnits device markup) :
    (∀ piece ∈ pieces device markup, piece.Known device) ↔
      ∀ chunk ∈ chunksFrom 0 markup, chunk.piece.Known device := by
  rw [← known_written, written_pieces device markup bracketed single, known_written, List.forall_mem_map]

theorem pieces_records (bracketed : Bracketed markup) (single : SingleUnits device markup)
    (readable : ∀ chunk ∈ chunksFrom 0 markup, Readable device chunk) :
    recordsFrom device "Arial".toList 0 (pieces device markup) = (imageTags markup).map (ImageTag.record device) := by
  rw [← records_written, written_pieces device markup bracketed single, records_written]
  exact records_tags device (chunksFrom 0 markup) readable "Arial".toList []

theorem pieces_string (bracketed : Bracketed markup) (single : SingleUnits device markup)
    (readable : ∀ chunk ∈ chunksFrom 0 markup, Readable device chunk) :
    (pieces device markup).flatMap (Piece.string device) = plainText markup := by
  rw [← string_written, written_pieces device markup bracketed single, string_written, plain_text_chunks 0 markup,
    List.flatMap_map]
  exact List.flatMap_congr fun chunk member => readable_string device chunk (readable chunk member)

end Pieces

theorem image_records_iff (positive : PositivePictures device) (parts : PartsSingle device) (markup : List Char)
    (bracketed : Bracketed markup) (single : SingleUnits device markup) :
    RecordsImages device markup ↔ Recordable device markup := by
  have readable := chunks_readable device markup parts single
  have colors := pieces_known_iff device markup bracketed single
  have images := pieces_records device markup bracketed single readable
  have text := pieces_string device markup bracketed single readable
  unfold RecordsImages
  by_cases known : ∀ piece ∈ pieces device markup, piece.Known device
  · have parsed := parse_markup_known device (.init device) markup known
    simp only [MarkupParse.init, List.nil_append] at parsed
    obtain ⟨_, increasing⟩ := records_locations device (pieces device markup) "Arial".toList 0
    rw [images] at parsed increasing
    constructor
    · rintro ⟨_, done, well⟩
      obtain rfl := Option.some.inj (parsed.symm.trans done)
      refine ⟨colors.mp known, fun tag member => ?_⟩
      have records := List.forall₂_map_right_iff.mp well.records
      exact (recorded_iff device positive tag).mp (List.forall₂_same.mp records tag member)
    · intro recordable
      refine ⟨_, parsed, ?_, ?_, increasing, fun record member => ?_⟩
      · exact (runs_from_string device (pieces device markup) device.black "Arial".toList).trans text
      · exact List.forall₂_map_right_iff.mpr (List.forall₂_same.mpr fun tag member =>
          (recorded_iff device positive tag).mpr (recordable.lines tag member))
      · simp only at member
        rw [← images] at member
        obtain ⟨before, after, place, count⟩ := records_placeholders device (pieces device markup) device.black
          "Arial".toList 0 record member
        exact ⟨before, after, place, (Nat.zero_add _).symm.trans count⟩
  · refine iff_of_false ?_ fun recordable => known (colors.mpr recordable.colors)
    rintro ⟨_, done, _⟩
    rw [parse_markup_raises device _ markup known] at done
    cases done

section Samples

def pictureDevice : Device Unit Unit :=
  { asciiDevice with imageNamed := fun fileName => if fileName = "p".toList then some ⟨100, 50⟩ else none }

theorem ascii_single_cons (c : Char) (text : List Char) :
    SingleUnits asciiDevice (c :: text) ↔
      utf16Width c.toNat = 1 ∧ ¬ (c = '\r' ∧ text.head? = some '\n') ∧ SingleUnits asciiDevice text := by
  have width : utf16Count [c] = utf16Width c.toNat := rfl
  cases text with
  | nil =>
      have only : SingleUnits asciiDevice [c] ↔ utf16Width c.toNat = 1 := List.forall_mem_singleton
      exact only.trans ⟨fun single => ⟨single, fun both => (nomatch both.2), fun _ absent => nomatch absent⟩, And.left⟩
  | cons d rest =>
      by_cases together : c = '\r' ∧ d = '\n'
      · have first : [c, d] ∈ asciiDevice.characters (c :: d :: rest) := by
          change [c, d] ∈ asciiCharacters (c :: d :: rest)
          rw [asciiCharacters, if_pos together]
          exact List.mem_cons_self
        obtain ⟨rfl, rfl⟩ := together
        refine iff_of_false (fun single => ?_) fun all => all.2.1 ⟨rfl, rfl⟩
        exact absurd (single _ first) (by decide)
      · have shape : asciiDevice.characters (c :: d :: rest) = [c] :: asciiDevice.characters (d :: rest) := by
          change asciiCharacters (c :: d :: rest) = [c] :: asciiCharacters (d :: rest)
          rw [asciiCharacters, if_neg together]
        have apart : ¬ (c = '\r' ∧ (d :: rest).head? = some '\n') := fun both =>
          together ⟨both.1, Option.some.inj both.2⟩
        rw [SingleUnits, shape, List.forall_mem_cons, width]
        exact ⟨fun both => ⟨both.1, apart, both.2⟩, fun all => ⟨all.1, all.2.2⟩⟩

theorem ascii_single_behind (before text : List Char) (single : SingleUnits asciiDevice (before ++ text)) :
    SingleUnits asciiDevice text := by
  induction before with
  | nil => exact single
  | cons c before ih => exact ih ((ascii_single_cons c (before ++ text)).mp single).2.2

theorem ascii_single_front (text after : List Char) (single : SingleUnits asciiDevice (text ++ after)) :
    SingleUnits asciiDevice text := by
  induction text with
  | nil => exact fun _ absent => nomatch absent
  | cons c text ih =>
      obtain ⟨width, apart, rest⟩ := (ascii_single_cons c (text ++ after)).mp single
      refine (ascii_single_cons c text).mpr ⟨width, fun both => apart ⟨both.1, ?_⟩, ih rest⟩
      rw [List.head?_append, both.2]
      rfl

theorem ascii_parts_single : PartsSingle asciiDevice := fun before part after single =>
  ascii_single_behind before part (ascii_single_front (before ++ part) after single)

theorem bracketed_tails (markup : List Char)
    (all : ∀ suffix ∈ markup.tails, suffix.head? = some '<' →
      (tagAt Char.toNat suffix).any fun pair => decide ('<' ∉ pair.1.tail)) : Bracketed markup := by
  intro rest behind
  have found := all ('<' :: rest) ((List.mem_tails _ _).mpr behind) rfl
  obtain ⟨⟨tag, after⟩, there, plain⟩ := (Option.any_eq_true _ _).mp found
  exact ⟨tag, after, there, of_decide_eq_true plain⟩

theorem picture_positive : PositivePictures pictureDevice := by
  intro fileName image named
  by_cases known : fileName = "p".toList
  · obtain rfl := Option.some.inj ((if_pos known).symm.trans named)
    exact ⟨by decide, by decide⟩
  · cases (if_neg known).symm.trans named

def twoImages : List Char := "a<img src=\"p\">b<img src=\"q\">".toList

theorem two_images_chunks :
    chunksFrom 0 twoImages =
      [⟨0, ['a'], "<img src=\"p\">".toList⟩, ⟨14, ['b'], "<img src=\"q\">".toList⟩, ⟨28, [], []⟩] := by
  rw [chunks_tag 0 twoImages ['a'] "<img src=\"p\">".toList "b<img src=\"q\">".toList (by decide),
    chunks_tag _ _ ['b'] "<img src=\"q\">".toList [] (by decide), chunks_end _ [] rfl]
  rfl

theorem line_fits (tag : ImageTag) : tag.lineFits pictureDevice := by
  change (16 : CGFloat) ≤ (CTSettings.init pictureDevice.screen).columnRect.height
  decide +kernel

theorem two_images_recorded : RecordsImages pictureDevice twoImages := by
  refine (image_records_iff pictureDevice picture_positive ascii_parts_single twoImages
    (bracketed_tails _ (by decide)) (by unfold SingleUnits; decide)).mpr ⟨?_, fun tag _ _ => line_fits tag⟩
  rw [two_images_chunks]
  unfold Piece.Known
  decide

theorem unknown_color_no_images :
    ¬ ∀ markup, Bracketed markup → SingleUnits pictureDevice markup → RecordsImages pictureDevice markup := by
  intro all
  obtain ⟨_, done, _⟩ := all "<font color=\"foo\"><img src=\"p\">".toList (bracketed_tails _ (by decide))
    (by unfold SingleUnits; decide)
  have raises : (parseMarkup pictureDevice (.init pictureDevice) "<font color=\"foo\"><img src=\"p\">".toList).isNone :=
    by decide
  rw [done] at raises
  cases raises

end Samples

end CultivationMotain.CoreTextMagazine

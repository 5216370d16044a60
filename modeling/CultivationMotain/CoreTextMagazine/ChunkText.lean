import CultivationMotain.CoreTextMagazine.MarkupPieces
import CultivationMotain.CoreTextMagazine.MarkupTags

set_option autoImplicit false

namespace CultivationMotain.CoreTextMagazine

open Foundation Regex

variable {Color Font : Type} (device : Device Color Font)

def opensImage (part : List Char) : Bool :=
  match (components '<' part).2 with
  | [] => false
  | tag :: _ => hasPrefix device tag "img".toList

def contribution (markup : List Char) (chunk : NSRange) : List Char :=
  match rangeFrom device markup chunk with
  | none => []
  | some part => (components '<' part).1 ++ (if opensImage device part then [' '] else [])

-- Every color that a font tag of the chunk names is one of UIColor's.
def ColorsKnown (markup : List Char) (chunk : NSRange) : Prop :=
  ∀ part tag others, rangeFrom device markup chunk = some part → (components '<' part).2 = tag :: others →
    hasPrefix device tag "font".toList = true →
    ∀ name ∈ matchTexts device (colorPattern device) tag, (device.performColor (name ++ "Color".toList)).isSome

-- The part of a chunk before the end of the search.
def Chunk.visible (limit : Nat) (chunk : Chunk) : NSRange :=
  ⟨chunk.location, min (utf16Count (chunk.text ++ chunk.tag)) (limit - chunk.location)⟩

-- What a chunk of the whole markup adds.
def Chunk.added (markup : List Char) (chunk : Chunk) : List Char :=
  contribution device markup (chunk.visible (searchEnd device markup))

def ParsesText (parser : MarkupParse Color Font) (markup : List Char) : Prop :=
  ∃ parsed, parseMarkup device parser markup = some parsed ∧ parsed.string = plainText markup

section Parsing

theorem contribution_piece (markup : List Char) (chunk : NSRange) :
    contribution device markup chunk = (chunkPiece device markup chunk).toList.flatMap (Piece.string device) := by
  unfold contribution chunkPiece
  cases rangeFrom device markup chunk with
  | none => rfl
  | some part =>
      have opens : opensImage device part = ((pieceOf part).image device).isSome := by
        unfold opensImage Piece.image pieceOf
        cases (components '<' part).2 with
        | nil => rfl
        | cons tag others =>
            simp only [List.head?_cons]
            by_cases isImage : hasPrefix device tag "img".toList = true
            · rw [if_pos isImage, isImage]
              rfl
            · rw [if_neg isImage, Bool.eq_false_iff.mpr isImage]
              rfl
      rw [Option.map_some, Option.toList_some, List.flatMap_singleton, Piece.string, ← opens]
      rfl

theorem colors_known_iff (markup : List Char) (chunk : NSRange) :
    ColorsKnown device markup chunk ↔ ∀ piece ∈ chunkPiece device markup chunk, piece.Known device := by
  unfold ColorsKnown chunkPiece
  cases rangeFrom device markup chunk with
  | none =>
      constructor
      · intro _ piece member
        cases member
      · intro _ part _ _ found
        cases found
  | some part =>
      constructor
      · rintro known piece ⟨⟩ name member
        unfold Piece.colors fontTexts pieceOf at member
        cases parts : (components '<' part).2 with
        | nil =>
            simp only [parts, List.head?_nil] at member
            cases member
        | cons tag others =>
            simp only [parts, List.head?_cons] at member
            by_cases isFont : hasPrefix device tag "font".toList = true
            · rw [if_pos isFont] at member
              exact known part tag others rfl parts isFont name member
            · rw [if_neg isFont] at member
              cases member
      · rintro known _ tag others ⟨⟩ parts isFont name member
        refine known (pieceOf part) rfl name ?_
        unfold Piece.colors fontTexts pieceOf
        simp only [parts, List.head?_cons, if_pos isFont]
        exact member

theorem parse_text_iff (parser : MarkupParse Color Font) (markup : List Char) :
    ParsesText device parser markup ↔
      (∀ chunk ∈ matchesIn device chunkPattern markup, ColorsKnown device markup chunk) ∧
        (matchesIn device chunkPattern markup).flatMap (contribution device markup) = plainText markup := by
  have text : (matchesIn device chunkPattern markup).flatMap (contribution device markup) =
      (pieces device markup).flatMap (Piece.string device) := by
    rw [pieces, List.filterMap_eq_flatMap_toList, List.flatMap_assoc]
    exact congrArg (List.flatMap · _) (funext (contribution_piece device markup))
  have colors : (∀ chunk ∈ matchesIn device chunkPattern markup, ColorsKnown device markup chunk) ↔
      ∀ piece ∈ pieces device markup, piece.Known device := by
    simp only [colors_known_iff]
    constructor
    · intro known piece member
      obtain ⟨chunk, found, read⟩ := List.mem_filterMap.mp member
      exact known chunk found piece read
    · intro known chunk found piece read
      exact known piece (List.mem_filterMap.mpr ⟨chunk, found, read⟩)
  rw [text, colors]
  by_cases known : ∀ piece ∈ pieces device markup, piece.Known device
  · rw [ParsesText, parse_markup_known device parser markup known, and_iff_right known]
    constructor
    · rintro ⟨_, ⟨⟩, same⟩
      rw [← same]
      exact (runs_from_string device _ _ _).symm
    · intro same
      exact ⟨_, rfl, (runs_from_string device _ _ _).trans same⟩
  · rw [ParsesText, parse_markup_raises device parser markup known]
    constructor
    · rintro ⟨_, absent, _⟩
      cases absent
    · exact fun both => absurd both.1 known

end Parsing

section Ranges

theorem split_characters (offset : Nat) (characters before after : List (List Char))
    (found : splitCharacters offset characters = some (before, after)) :
    characters = before ++ after ∧ utf16Count before.flatten = offset := by
  induction characters generalizing offset before with
  | nil =>
      cases offset with
      | zero => cases found; exact ⟨rfl, rfl⟩
      | succ offset => cases found
  | cons character rest ih =>
      cases offset with
      | zero => cases found; exact ⟨rfl, rfl⟩
      | succ offset =>
          simp only [splitCharacters] at found
          split at found
          · rename_i fits
            obtain ⟨⟨more, _⟩, later, same⟩ := Option.map_eq_some_iff.mp found
            cases same
            obtain ⟨rfl, size⟩ := ih _ _ later
            refine ⟨rfl, ?_⟩
            rw [List.flatten_cons, utf16_count_append, size]
            omega
          · cases found

theorem range_from_parts (markup : List Char) (range : NSRange) (part : List Char)
    (found : rangeFrom device markup range = some part) :
    ∃ before after, markup = before ++ part ++ after ∧ utf16Count before = range.location ∧
      utf16Count part = range.length := by
  obtain ⟨⟨before, rest⟩, first, found⟩ := Option.bind_eq_some_iff.mp found
  obtain ⟨⟨inside, after⟩, second, found⟩ := Option.bind_eq_some_iff.mp found
  obtain rfl := Option.some.inj found
  obtain ⟨whole, place⟩ := split_characters _ _ _ _ first
  obtain ⟨rfl, size⟩ := split_characters _ _ _ _ second
  refine ⟨before.flatten, after.flatten, ?_, place, size⟩
  rw [← device.joined markup, whole]
  simp

theorem utf16_count_zero (text : List Char) (empty : utf16Count text = 0) : text = [] := by
  cases text with
  | nil => rfl
  | cons c text =>
      have size : utf16Count (c :: text) = utf16Width c.toNat + utf16Count text := rfl
      have positive : 1 ≤ utf16Width c.toNat := by
        unfold utf16Width
        split <;> omega
      omega

theorem range_from_empty (markup part : List Char) (location : Nat)
    (found : rangeFrom device markup ⟨location, 0⟩ = some part) : part = [] := by
  obtain ⟨_, _, _, _, size⟩ := range_from_parts device markup _ part found
  exact utf16_count_zero part size

theorem empty_contribution (markup : List Char) (location : Nat) : contribution device markup ⟨location, 0⟩ = [] := by
  unfold contribution
  cases found : rangeFrom device markup ⟨location, 0⟩ with
  | none => rfl
  | some part =>
      obtain rfl := range_from_empty device markup part location found
      rfl

theorem search_end_le (text : List Char) : searchEnd device text ≤ utf16Count text := by
  have characters : ∀ pieces : List (List Char), (∀ character ∈ pieces, character ≠ []) →
      pieces.length ≤ utf16Count pieces.flatten := by
    intro pieces
    induction pieces with
    | nil => exact fun _ => Nat.le_refl _
    | cons character pieces ih =>
        intro nonempty
        have rest := ih fun other member => nonempty other (List.mem_cons_of_mem character member)
        have positive : utf16Count character ≠ 0 := fun zero =>
          nonempty character List.mem_cons_self (utf16_count_zero character zero)
        rw [List.flatten_cons, utf16_count_append, List.length_cons]
        omega
  have count := characters _ (device.nonempty text)
  rw [device.joined] at count
  unfold searchEnd
  dsimp only
  split
  · rename_i pair
    cases present : (encode text)[(device.characters text).length]? with
    | none => simp [present] at pair
    | some unit =>
        have bound := (List.getElem?_eq_some_iff.mp present).1
        rw [encode_length] at bound
        exact bound
  · exact count

end Ranges

section Searching

theorem chunks_behind {β : Type} (location limit : Nat) (markup : List Char) (value : NSRange → List β)
    (empty : ∀ location, value ⟨location, 0⟩ = []) (behind : limit ≤ location) :
    (chunksFrom location markup).flatMap (fun chunk => value (chunk.visible limit)) = [] := by
  refine List.flatMap_eq_nil_iff.mpr fun chunk member => ?_
  obtain ⟨before, _, _, place, _⟩ := chunk_position location markup chunk member
  have none_left : limit - chunk.location = 0 := by omega
  rw [Chunk.visible, none_left, Nat.min_zero, empty]

theorem chunk_weight (text : List Char) : weight utf16Width (text.map Char.toNat) = utf16Count text :=
  weight_map ..

theorem half_le (beyond inside after : List Char) (half : List CodePoint) (halved : HalfOf beyond half)
    (parts : beyond = inside ++ after) (reaches : inside ≠ [] ∨ after = []) : half.length ≤ utf16Count inside := by
  rcases halved with rfl | ⟨unit, c, rest, rfl, shape, _, _, wide⟩
  · exact Nat.zero_le _
  · cases inside with
    | nil =>
        rw [reaches.resolve_left fun absent => absent rfl, shape] at parts
        cases parts
    | cons first others =>
        rw [shape] at parts
        cases parts
        have size : utf16Count (c :: others) = utf16Width c.toNat + utf16Count others := rfl
        rw [List.length_singleton]
        omega

theorem half_weight (beyond : List Char) (half : List CodePoint) (halved : HalfOf beyond half) :
    weight utf16Width half = half.length := by
  rcases halved with rfl | ⟨unit, _, _, rfl, _, _, small, _⟩
  · rfl
  · have width : utf16Width unit = 1 := if_pos small
    simp [weight, width]

theorem next_tag_half (kept beyond : List Char) (half : List CodePoint) (halved : HalfOf beyond half)
    (absent : nextTag Char.toNat kept = none) : nextTag id (kept.map Char.toNat ++ half) = none := by
  have front : nextTag id (kept.map Char.toNat) = none := by
    rw [next_tag_map]
    exact Option.map_eq_none_iff.mpr absent
  rcases halved with rfl | ⟨unit, _, _, rfl, _, large, _, _⟩
  · rw [List.append_nil, front]
  · have plain : id unit ≠ greaterThan := fun same => by
      have small : unit = greaterThan := same
      exact absurd (small ▸ large) (by decide)
    rw [next_tag_snoc id _ unit plain, front]
    rfl

theorem visible_whole (limit location : Nat) (text tag : List Char)
    (inside : location + utf16Count (text ++ tag) ≤ limit) :
    Chunk.visible limit ⟨location, text, tag⟩ = ⟨location, utf16Count (text ++ tag)⟩ := by
  unfold Chunk.visible
  dsimp only
  rw [Nat.min_eq_left (by omega)]

theorem visible_cut (limit location : Nat) (text tag : List Char)
    (beyond : limit ≤ location + utf16Count (text ++ tag)) :
    Chunk.visible limit ⟨location, text, tag⟩ = ⟨location, limit - location⟩ := by
  unfold Chunk.visible
  dsimp only
  rw [Nat.min_eq_right (by omega)]

theorem find_visible_last {β : Type} (kept beyond : List Char) (half : List CodePoint) (halved : HalfOf beyond half)
    (value : NSRange → List β) (empty : ∀ location, value ⟨location, 0⟩ = []) (location limit : Nat)
    (before : List CodePoint) (cut : limit = location + utf16Count kept + half.length)
    (absent : nextTag Char.toNat kept = none) :
    (findFrom utf16Width chunkPattern location 0 before (kept.map Char.toNat ++ half)).flatMap value =
      (chunksFrom location (kept ++ beyond)).flatMap fun chunk => value (chunk.visible limit) := by
  obtain ⟨others, searched, empties⟩ := find_chunk_end location before _ (next_tag_half kept beyond half halved absent)
  have last : others.flatMap value = [] := List.flatMap_eq_nil_iff.mpr fun span member => by
    obtain ⟨place, length⟩ := span
    obtain rfl : length = 0 := empties _ member
    exact empty place
  have left : limit - location = utf16Count kept + half.length := by omega
  rw [searched, List.flatMap_cons, last, List.append_nil, weight_append, chunk_weight, half_weight beyond half halved,
    ← left]
  cases longer : nextTag Char.toNat (kept ++ beyond) with
  | none =>
      have reached := half_le beyond beyond [] half halved (List.append_nil _).symm (.inr rfl)
      rw [chunks_end location _ longer, List.flatMap_singleton, visible_cut]
      rw [List.append_nil, utf16_count_append]
      omega
  | some parts =>
      -- The tag ends behind the front, or it would be one of the front.
      obtain ⟨text, tag, after⟩ := parts
      obtain ⟨whole, _⟩ := next_tag_parts _ _ _ _ _ longer
      have beyondFront : kept.length < (text ++ tag).length := by
        refine Nat.lt_of_not_le fun fits => ?_
        obtain ⟨rest, there⟩ := next_tag_front Char.toNat kept beyond text tag after longer fits
        rw [absent] at there
        cases there
      obtain ⟨inside, chunk⟩ : kept <+: text ++ tag :=
        List.prefix_of_prefix_length_le ⟨beyond, rfl⟩ ⟨after, whole.symm⟩ (Nat.le_of_lt beyondFront)
      rw [← chunk, List.append_assoc] at whole
      have nonempty : inside ≠ [] := by
        rintro rfl
        rw [← chunk, List.append_nil] at beyondFront
        exact absurd beyondFront (Nat.lt_irrefl _)
      have reached := half_le beyond inside after half halved (List.append_cancel_left whole) (.inl nonempty)
      have count : utf16Count (text ++ tag) = utf16Count kept + utf16Count inside := by
        rw [← chunk, utf16_count_append]
      rw [chunks_tag location _ _ _ _ longer, List.flatMap_cons, visible_cut limit location text tag (by omega),
        chunks_behind (location + utf16Count (text ++ tag)) limit after value empty (by omega), List.append_nil]

theorem find_visible {β : Type} (kept beyond : List Char) (half : List CodePoint) (halved : HalfOf beyond half)
    (value : NSRange → List β) (empty : ∀ location, value ⟨location, 0⟩ = []) (location limit : Nat)
    (before : List CodePoint) (cut : limit = location + utf16Count kept + half.length) :
    (findFrom utf16Width chunkPattern location 0 before (kept.map Char.toNat ++ half)).flatMap value =
      (chunksFrom location (kept ++ beyond)).flatMap fun chunk => value (chunk.visible limit) := by
  induction length : kept.length using Nat.strong_induction_on generalizing kept location before with
  | _ size ih =>
      cases found : nextTag Char.toNat kept with
      | none => exact find_visible_last kept beyond half halved value empty location limit before cut found
      | some parts =>
          obtain ⟨text, tag, after⟩ := parts
          obtain ⟨whole, _⟩ := next_tag_parts _ _ _ _ _ found
          have front : nextTag id (kept.map Char.toNat) =
              some (text.map Char.toNat, tag.map Char.toNat, after.map Char.toNat) := by
            rw [next_tag_map]
            exact congrArg _ found
          have count : utf16Count kept = utf16Count (text ++ tag) + utf16Count after := by
            rw [whole, utf16_count_append]
          have shorter : after.length < size := length ▸ next_tag_shorter kept text tag after found
          rw [find_chunk_tag location before [] _ _ _ _ (next_tag_append id _ half _ _ _ front),
            chunks_tag location _ _ _ _ (next_tag_append Char.toNat kept beyond _ _ _ found), List.flatMap_cons,
            List.flatMap_cons, visible_whole limit location text tag (by omega), ← List.map_append, chunk_weight,
            ih after.length shorter after (location + utf16Count (text ++ tag)) [] (by omega) rfl]

theorem matches_visible {β : Type} (markup : List Char) (value : NSRange → List β)
    (empty : ∀ location, value ⟨location, 0⟩ = []) :
    (matchesIn device chunkPattern markup).flatMap value =
      (chunksFrom 0 markup).flatMap fun chunk => value (chunk.visible (searchEnd device markup)) := by
  obtain ⟨kept, beyond, half, whole, read, count, halved⟩ :=
    decode_take_encode markup (searchEnd device markup) (search_end_le device markup)
  have found := find_visible kept beyond half halved value empty 0 (searchEnd device markup) [] (by omega)
  rw [← whole, ← read] at found
  exact found

theorem found_visible (markup : List Char) :
    (matchesIn device chunkPattern markup).flatMap (contribution device markup) =
      (chunksFrom 0 markup).flatMap (Chunk.added device markup) :=
  matches_visible device markup (contribution device markup) (empty_contribution device markup)

end Searching

end CultivationMotain.CoreTextMagazine

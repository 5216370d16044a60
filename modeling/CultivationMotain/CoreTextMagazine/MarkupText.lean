import CultivationMotain.CoreTextMagazine.ChunkText
import Mathlib.Data.List.Flatten

set_option autoImplicit false

namespace CultivationMotain.CoreTextMagazine

open Foundation Regex

variable {Color Font : Type} (device : Device Color Font)

-- The text of a chunk lies before the end of the search, its part there goes
-- from one Character boundary to another, and of an image the part shows that
-- it is one.
structure Delivered (markup : List Char) (chunk : Chunk) : Prop where
  text : chunk.text ≠ [] → chunk.location + utf16Count chunk.text ≤ searchEnd device markup ∧
    (rangeFrom device markup (chunk.visible (searchEnd device markup))).isSome
  image : "<img".toList.isPrefixOf chunk.tag = true →
    ∃ part, rangeFrom device markup (chunk.visible (searchEnd device markup)) = some part ∧
      opensImage device part = true

structure Intact (markup : List Char) : Prop where
  noStray : ∀ chunk ∈ chunksFrom 0 markup, '<' ∉ chunk.text
  delivered : ∀ chunk ∈ chunksFrom 0 markup, Delivered device markup chunk
  colors : ∀ chunk ∈ matchesIn device chunkPattern markup, ColorsKnown device markup chunk

section Parts

theorem components_absent (separator : Char) (text : List Char) (absent : separator ∉ text) :
    components separator text = (text, []) := by
  induction text with
  | nil => rfl
  | cons c text ih =>
      obtain ⟨other, inside⟩ := List.ne_and_not_mem_of_not_mem_cons absent
      simp only [components, ih inside, if_neg (Ne.symm other)]

theorem components_first (separator : Char) (text rest : List Char) (absent : separator ∉ text) :
    components separator (text ++ separator :: rest) =
      (text, (components separator rest).1 :: (components separator rest).2) := by
  induction text with
  | nil => simp [components]
  | cons c text ih =>
      obtain ⟨other, inside⟩ := List.ne_and_not_mem_of_not_mem_cons absent
      simp only [List.cons_append, components, ih inside, if_neg (Ne.symm other)]

theorem components_start (separator : Char) (text : List Char) :
    (components separator text).1 <+: text ∧ separator ∉ (components separator text).1 := by
  induction text with
  | nil => exact ⟨List.prefix_rfl, List.not_mem_nil⟩
  | cons c text ih =>
      simp only [components]
      split
      · exact ⟨List.nil_prefix, List.not_mem_nil⟩
      · rename_i other
        exact ⟨List.cons_prefix_cons.mpr ⟨rfl, ih.1⟩, fun member =>
          (List.mem_cons.mp member).elim (fun same => other same.symm) ih.2⟩

theorem starts_with (text start : List Char) (starts : hasPrefix device text start = true) : start <+: text := by
  obtain ⟨rest, whole⟩ := List.isPrefixOf_iff_prefix.mp starts
  refine ⟨rest.flatten, ?_⟩
  have singles : (start.map fun c => [c]).flatten = start := List.flatMap_singleton' start
  rw [← device.joined text, ← whole, List.flatten_append, singles]

theorem contribution_plain (markup : List Char) (chunk : NSRange) : '<' ∉ contribution device markup chunk := by
  unfold contribution
  split
  · exact List.not_mem_nil
  · rename_i part _
    intro member
    rcases List.mem_append.mp member with inText | inImage
    · exact (components_start '<' part).2 inText
    · split at inImage
      · exact absurd (List.mem_singleton.mp inImage) (by decide)
      · cases inImage

theorem split_unique (first second other rest : List Char) (same : first ++ second = other ++ rest)
    (place : utf16Count first = utf16Count other) : first = other ∧ second = rest := by
  rcases List.append_eq_append_iff.mp same with ⟨more, longer, behind⟩ | ⟨more, longer, behind⟩
  · rw [longer, utf16_count_append] at place
    obtain rfl := utf16_count_zero more (by omega)
    exact ⟨by rw [longer, List.append_nil], behind⟩
  · rw [longer, utf16_count_append] at place
    obtain rfl := utf16_count_zero more (by omega)
    exact ⟨by rw [longer, List.append_nil], behind.symm⟩

theorem visible_prefix (markup part : List Char) (limit : Nat) (chunk : Chunk)
    (member : chunk ∈ chunksFrom 0 markup) (found : rangeFrom device markup (chunk.visible limit) = some part) :
    part <+: chunk.text ++ chunk.tag ∧
      utf16Count part = min (utf16Count (chunk.text ++ chunk.tag)) (limit - chunk.location) := by
  obtain ⟨before, after, whole, place, _⟩ := chunk_position 0 markup chunk member
  obtain ⟨front, behind, other, start, size⟩ := range_from_parts device markup _ part found
  rw [whole, List.append_assoc, List.append_assoc front] at other
  obtain ⟨_, rest⟩ := split_unique _ _ _ _ other (by
    rw [start]
    exact (place.trans (Nat.zero_add _)).symm)
  refine ⟨?_, size⟩
  rcases List.prefix_or_prefix_of_prefix ⟨after, rest⟩ ⟨behind, rfl⟩ with longer | shorter
  · obtain ⟨more, longer⟩ := longer
    have least : utf16Count part ≤ utf16Count (chunk.text ++ chunk.tag) := size.symm ▸ Nat.min_le_left ..
    rw [← longer, utf16_count_append] at least
    obtain rfl := utf16_count_zero more (by omega)
    exact ⟨[], by rw [← longer, List.append_nil, List.append_nil]⟩
  · exact shorter

theorem opens_image (text shown tag : List Char) (plain : '<' ∉ text) (front : shown <+: tag)
    (opens : tag = [] ∨ ∃ body, tag = '<' :: body) :
    (components '<' (text ++ shown)).1 = text ∧
      (opensImage device (text ++ shown) = true → "<img".toList.isPrefixOf tag = true) := by
  cases shown with
  | nil => simp [opensImage, components_absent '<' text plain]
  | cons c shown =>
      obtain ⟨body, rfl⟩ := opens.resolve_left fun empty => by
        rw [empty] at front
        cases List.prefix_nil.mp front
      obtain ⟨rfl, within⟩ := List.cons_prefix_cons.mp front
      have parts := components_first '<' text shown plain
      refine ⟨by rw [parts], fun isImage => ?_⟩
      simp only [opensImage, parts] at isImage
      have image := (starts_with device _ _ isImage).trans ((components_start '<' shown).1.trans within)
      exact List.isPrefixOf_iff_prefix.mpr (List.cons_prefix_cons.mpr ⟨rfl, image⟩)

theorem image_suffix (opened : Bool) (tag : List Char) (sound : opened = true → "<img".toList.isPrefixOf tag = true) :
    (if opened then [' '] else []).Sublist (replacedTag tag) ∧
      ((if opened then [' '] else []) = replacedTag tag ↔ ("<img".toList.isPrefixOf tag = true → opened = true)) := by
  unfold replacedTag
  cases opened with
  | true =>
      rw [sound rfl]
      simp
  | false =>
      cases "<img".toList.isPrefixOf tag with
      | false => simp
      | true => simp

theorem dropped_cases (markup : List Char) (chunk : Chunk)
    (found : rangeFrom device markup (chunk.visible (searchEnd device markup)) = none) :
    (chunk.added device markup).Sublist chunk.plain ∧
      (chunk.added device markup = chunk.plain ↔ Delivered device markup chunk) := by
  have nothing : chunk.added device markup = [] := by simp only [Chunk.added, contribution, found]
  obtain ⟨_, suffix⟩ := image_suffix false chunk.tag fun absent => absurd absent Bool.false_ne_true
  have plain : [] = chunk.plain ↔ chunk.text = [] ∧ ("<img".toList.isPrefixOf chunk.tag = true → false = true) := by
    rw [← suffix, eq_comm, Chunk.plain, List.append_eq_nil_iff]
    exact and_congr_right fun _ => eq_comm
  rw [nothing, plain]
  refine ⟨List.nil_sublist _, fun empty => ⟨fun present => absurd empty.1 present, fun image =>
    absurd (empty.2 image) Bool.false_ne_true⟩, fun delivered => ⟨?_, fun image => ?_⟩⟩
  · by_contra present
    have there := (delivered.text present).2
    rw [found] at there
    cases there
  · obtain ⟨_, there, _⟩ := delivered.image image
    rw [found] at there
    cases there

theorem shown_cases (markup shown : List Char) (chunk : Chunk) (member : chunk ∈ chunksFrom 0 markup)
    (plain : '<' ∉ chunk.text)
    (found : rangeFrom device markup (chunk.visible (searchEnd device markup)) = some (chunk.text ++ shown)) :
    (chunk.added device markup).Sublist chunk.plain ∧
      (chunk.added device markup = chunk.plain ↔ Delivered device markup chunk) := by
  obtain ⟨_, _, _, _, opens⟩ := chunk_position 0 markup chunk member
  obtain ⟨front, size⟩ := visible_prefix device markup _ _ chunk member found
  obtain ⟨text, image⟩ := opens_image device chunk.text shown chunk.tag plain
    ((List.prefix_append_right_inj _).mp front) opens
  obtain ⟨least, suffix⟩ := image_suffix (opensImage device (chunk.text ++ shown)) chunk.tag image
  have value : chunk.added device markup =
      chunk.text ++ (if opensImage device (chunk.text ++ shown) then [' '] else []) := by
    simp only [Chunk.added, contribution, found, text]
  rw [value, Chunk.plain, List.append_cancel_left_eq, suffix]
  rw [utf16_count_append] at size
  refine ⟨least.append_left _, fun opened => ⟨fun present => ⟨?_, found ▸ rfl⟩, fun isImage =>
    ⟨_, found, opened isImage⟩⟩, fun delivered isImage => ?_⟩
  · have positive : utf16Count chunk.text ≠ 0 := fun zero => present (utf16_count_zero _ zero)
    omega
  · obtain ⟨_, there, opened⟩ := delivered.image isImage
    obtain rfl := Option.some.inj (found.symm.trans there)
    exact opened

theorem truncated_cases (markup part : List Char) (chunk : Chunk) (member : chunk ∈ chunksFrom 0 markup)
    (plain : '<' ∉ chunk.text)
    (found : rangeFrom device markup (chunk.visible (searchEnd device markup)) = some part)
    (short : ¬ chunk.text <+: part) :
    (chunk.added device markup).Sublist chunk.plain ∧
      (chunk.added device markup = chunk.plain ↔ Delivered device markup chunk) := by
  obtain ⟨front, size⟩ := visible_prefix device markup part _ chunk member found
  have inside : part <+: chunk.text :=
    (List.prefix_or_prefix_of_prefix front (List.prefix_append ..)).resolve_right short
  have noTag : components '<' part = (part, []) :=
    components_absent '<' part fun bracket => plain (inside.subset bracket)
  have value : chunk.added device markup = part := by
    simp only [Chunk.added, contribution, found, opensImage, noTag]
    exact List.append_nil _
  rw [value]
  refine ⟨inside.sublist.trans (List.prefix_append ..).sublist, iff_of_false (fun same => ?_) fun delivered => ?_⟩
  · exact short (same ▸ List.prefix_append ..)
  · have reaches := (delivered.text fun empty => short (empty ▸ List.nil_prefix)).1
    obtain ⟨more, whole⟩ := inside
    rw [utf16_count_append] at size
    have count : utf16Count chunk.text = utf16Count part + utf16Count more := by
      rw [← whole, utf16_count_append]
    obtain rfl := utf16_count_zero more (by omega)
    exact short ⟨[], by rw [← whole, List.append_nil, List.append_nil]⟩

theorem added_cases (markup : List Char) (chunk : Chunk) (member : chunk ∈ chunksFrom 0 markup)
    (plain : '<' ∉ chunk.text) :
    (chunk.added device markup).Sublist chunk.plain ∧
      (chunk.added device markup = chunk.plain ↔ Delivered device markup chunk) := by
  cases found : rangeFrom device markup (chunk.visible (searchEnd device markup)) with
  | none => exact dropped_cases device markup chunk found
  | some part =>
      by_cases fits : chunk.text <+: part
      · obtain ⟨shown, rfl⟩ := fits
        exact shown_cases device markup shown chunk member plain found
      · exact truncated_cases device markup part chunk member plain found fits

theorem flat_map_sublist {ι β : Type} (items : List ι) (piece whole : ι → List β)
    (least : ∀ item ∈ items, (piece item).Sublist (whole item)) (same : items.flatMap piece = items.flatMap whole) :
    ∀ item ∈ items, piece item = whole item := by
  induction items with
  | nil => exact fun _ member => (nomatch member)
  | cons item items ih =>
      obtain ⟨here, later⟩ := List.forall_mem_cons.mp least
      have behind := (List.Sublist.flatMap_right items later).length_le
      rw [List.flatMap_cons, List.flatMap_cons] at same
      have sizes := congrArg List.length same
      rw [List.length_append, List.length_append] at sizes
      have first : piece item = whole item := here.eq_of_length (Nat.le_antisymm here.length_le (by omega))
      rw [first] at same
      exact List.forall_mem_cons.mpr ⟨first, ih later (List.append_cancel_left same)⟩

theorem plain_pieces (markup : List Char)
    (same : (chunksFrom 0 markup).flatMap (Chunk.added device markup) = plainText markup) :
    ∀ chunk ∈ chunksFrom 0 markup, '<' ∉ chunk.text := by
  intro chunk member stray
  have inText : '<' ∈ plainText markup := by
    rw [plain_text_chunks 0 markup]
    exact List.mem_flatMap.mpr ⟨chunk, member, List.mem_append_left _ stray⟩
  rw [← same] at inText
  obtain ⟨_, _, inside⟩ := List.mem_flatMap.mp inText
  exact contribution_plain device markup _ inside

end Parts

theorem parsed_text_iff (parser : MarkupParse Color Font) (markup : List Char) :
    ParsesText device parser markup ↔ Intact device markup := by
  rw [parse_text_iff, found_visible]
  constructor
  · rintro ⟨colors, same⟩
    have plain := plain_pieces device markup same
    have pieces := flat_map_sublist (chunksFrom 0 markup) (Chunk.added device markup) Chunk.plain
      (fun chunk member => (added_cases device markup chunk member (plain chunk member)).1)
      (same.trans (plain_text_chunks 0 markup))
    exact ⟨plain, fun chunk member =>
      (added_cases device markup chunk member (plain chunk member)).2.mp (pieces chunk member), colors⟩
  · intro intact
    refine ⟨intact.colors, ?_⟩
    rw [plain_text_chunks 0 markup]
    refine List.flatMap_congr fun chunk member => ?_
    exact (added_cases device markup chunk member (intact.noStray chunk member)).2.mpr (intact.delivered chunk member)

-- In ASCII only a carriage return and its line feed share a Character.
def asciiCharacters : List Char → List (List Char)
  | [] => []
  | [c] => [[c]]
  | c :: d :: rest =>
      if c = '\r' ∧ d = '\n' then [c, d] :: asciiCharacters rest else [c] :: asciiCharacters (d :: rest)

def asciiDevice : Device Unit Unit where
  characters := asciiCharacters
  joined text := by
    fun_induction asciiCharacters text with
    | case1 => rfl
    | case2 c => rfl
    | case3 c d rest _ ih => rw [List.flatten_cons, ih]; rfl
    | case4 c d rest _ ih => rw [List.flatten_cons, ih]; rfl
  nonempty text := by
    fun_induction asciiCharacters text with
    | case1 => exact fun _ member => (nomatch member)
    | case2 c => simp
    | case3 c d rest _ ih => exact List.forall_mem_cons.mpr ⟨List.cons_ne_nil _ _, ih⟩
    | case4 c d rest _ ih => exact List.forall_mem_cons.mpr ⟨List.cons_ne_nil _ _, ih⟩
  completesPair := false
  wordCharacter c := decide (0x61 ≤ c ∧ c ≤ 0x7A)
  performColor name := if name = "redColor".toList then some (some ()) else none
  black := ()
  fontNamed _ _ := some ()
  systemFont _ := ()
  lineHeight _ := 16
  imageNamed _ := none
  screen := ⟨⟨0, 0, 320, 568⟩, true⟩

-- The line end is one Character of two units: the searched range ends before the
-- last letter.
theorem line_end_truncates : ¬ ParsesText asciiDevice (.init asciiDevice) "one\r\ntwo".toList := by
  rintro ⟨parsed, done, same⟩
  have shown : (parseMarkup asciiDevice (.init asciiDevice) "one\r\ntwo".toList).map MarkupParse.string =
      some "one\r\ntw".toList := by decide
  have plain : plainText "one\r\ntwo".toList = "one\r\ntwo".toList := by decide
  rw [done, Option.map_some, same, plain] at shown
  exact absurd shown (by decide)

-- Behind a bracket that opens no tag the text is lost.
example : (parseMarkup asciiDevice (.init asciiDevice) "a < b".toList).map MarkupParse.string =
    some "a ".toList := by decide

end CultivationMotain.CoreTextMagazine

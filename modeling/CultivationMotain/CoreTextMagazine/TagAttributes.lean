import CultivationMotain.CoreTextMagazine.ChunkText
import Mathlib.Data.List.TakeWhile

set_option autoImplicit false

namespace CultivationMotain.CoreTextMagazine

open Foundation Regex

variable {Color Font : Type} (device : Device Color Font)

def SingleUnits (text : List Char) : Prop := ∀ character ∈ device.characters text, utf16Count character = 1

-- What stands behind a place where name=" ends, up to the next quote.
def valueAt (name : String) (text : List Char) (place : Nat) : Option (List Char) :=
  if (name ++ "=\"").toList.isSuffixOf (text.take place) then some ((text.drop place).takeWhile (· != '"')) else none

def attributeValues (name : String) (text : List Char) : List (List Char) :=
  ((List.range (text.length + 1)).filterMap (valueAt name text)).filter fun value => !value.isEmpty

section Units

theorem single_scalars (characters : List (List Char)) (single : ∀ character ∈ characters, utf16Count character = 1) :
    characters = characters.flatten.map (fun c => [c]) ∧ ∀ c ∈ characters.flatten, utf16Width c.toNat = 1 := by
  induction characters with
  | nil => exact ⟨rfl, fun _ absent => nomatch absent⟩
  | cons character characters ih =>
      obtain ⟨here, later⟩ := List.forall_mem_cons.mp single
      obtain ⟨same, widths⟩ := ih later
      cases character with
      | nil => exact absurd here Nat.zero_ne_one
      | cons c rest =>
          have size : utf16Count (c :: rest) = utf16Width c.toNat + utf16Count rest := rfl
          have positive : 1 ≤ utf16Width c.toNat := by
            unfold utf16Width
            split <;> omega
          obtain rfl := utf16_count_zero rest (by omega)
          have width : utf16Width c.toNat = 1 := size.symm.trans here
          rw [List.flatten_cons, List.singleton_append, List.map_cons, ← same]
          exact ⟨rfl, List.forall_mem_cons.mpr ⟨width, widths⟩⟩

theorem single_characters (text : List Char) (single : SingleUnits device text) :
    device.characters text = text.map (fun c => [c]) ∧ ∀ c ∈ text, utf16Width c.toNat = 1 := by
  have scalars := single_scalars (device.characters text) single
  rw [device.joined] at scalars
  exact scalars

theorem unit_count (text : List Char) (widths : ∀ c ∈ text, utf16Width c.toNat = 1) :
    utf16Count text = text.length := by
  induction text with
  | nil => rfl
  | cons c text ih =>
      obtain ⟨here, later⟩ := List.forall_mem_cons.mp widths
      have size : utf16Count (c :: text) = utf16Width c.toNat + utf16Count text := rfl
      rw [size, here, ih later, List.length_cons, Nat.add_comm]

theorem single_search_end (text : List Char) (single : SingleUnits device text) :
    searchEnd device text = text.length := by
  obtain ⟨characters, widths⟩ := single_characters device text single
  have beyond : (encode text)[text.length]? = none := by
    rw [List.getElem?_eq_none_iff, encode_length, unit_count text widths]
  have outside : ¬ (device.completesPair = true ∧
      ((encode text)[text.length - 1]?).any isHighSurrogate = true ∧
      ((encode text)[text.length]?).any isLowSurrogate = true) := by
    rintro ⟨_, _, there⟩
    rw [beyond] at there
    cases there
  unfold searchEnd
  dsimp only
  rw [characters, List.length_map]
  exact if_neg outside

theorem decode_encode (text : List Char) : decode (encode text) = text.map Char.toNat := by
  induction text with
  | nil => rfl
  | cons c text ih =>
      have shape : encode (c :: text) = encodeScalar c ++ encode text := rfl
      rw [shape, decode_scalar, ih, List.map_cons]

theorem single_searched (text : List Char) (single : SingleUnits device text) :
    searched device text = text.map Char.toNat := by
  obtain ⟨_, widths⟩ := single_characters device text single
  have whole : searchEnd device text = (encode text).length := by
    rw [single_search_end device text single, encode_length, unit_count text widths]
  rw [searched, whole, List.take_length, decode_encode]

theorem split_singles (text : List Char) (widths : ∀ c ∈ text, utf16Width c.toNat = 1) (offset : Nat)
    (inside : offset ≤ text.length) :
    splitCharacters offset (text.map fun c => [c]) =
      some ((text.take offset).map (fun c => [c]), (text.drop offset).map fun c => [c]) := by
  induction text generalizing offset with
  | nil =>
      obtain rfl := Nat.le_zero.mp inside
      rfl
  | cons c text ih =>
      obtain ⟨here, later⟩ := List.forall_mem_cons.mp widths
      cases offset with
      | zero => rfl
      | succ offset =>
          have size : utf16Count [c] = 1 := here
          rw [List.map_cons, splitCharacters, size, if_pos (Nat.le_add_left 1 offset), Nat.add_sub_cancel,
            ih later offset (Nat.le_of_succ_le_succ inside)]
          rfl

theorem single_range (text : List Char) (single : SingleUnits device text) (location length : Nat)
    (inside : location + length ≤ text.length) :
    rangeFrom device text ⟨location, length⟩ = some ((text.drop location).take length) := by
  obtain ⟨characters, widths⟩ := single_characters device text single
  have behind : ∀ c ∈ text.drop location, utf16Width c.toNat = 1 := fun c member =>
    widths c (List.mem_of_mem_drop member)
  have room : length ≤ (text.drop location).length := by
    rw [List.length_drop]
    omega
  have joined : ((((text.drop location).take length).map fun c => [c]).flatten) = (text.drop location).take length :=
    List.flatMap_singleton' _
  simp only [rangeFrom, characters]
  rw [split_singles text widths location (by omega)]
  simp only [Option.bind_eq_bind, Option.bind_some, split_singles _ behind length room, joined]

theorem singles_prefix (start text : List Char) :
    (start.map fun c => [c]).isPrefixOf (text.map fun c => [c]) = start.isPrefixOf text := by
  induction start generalizing text with
  | nil => cases text <;> rfl
  | cons c start ih =>
      cases text with
      | nil => rfl
      | cons d text => simp [List.isPrefixOf, ih]

theorem single_prefix (text start : List Char) (single : SingleUnits device text) :
    hasPrefix device text start = start.isPrefixOf text := by
  rw [hasPrefix, (single_characters device text single).1, singles_prefix]

end Units

section Quoted

variable (name : String)

def quoteEnd : CodePoint := 0x22

def opening : List CodePoint := codePoints (name ++ "=\"")

theorem opening_reverse : ∃ rest, (opening name).reverse = quoteEnd :: rest := by
  refine ⟨(codePoints (name ++ "=")).reverse, ?_⟩
  have parts : codePoints (name ++ "=\"") = codePoints (name ++ "=") ++ [quoteEnd] := by
    simp [codePoints, quoteEnd]
  rw [opening, parts, List.reverse_append]
  rfl

theorem first_quoted (before rest : List CodePoint) :
    first (quotedPattern name) before rest =
      if (opening name).reverse.isPrefixOf before then
        if rest.takeWhile (· != quoteEnd) = [] then none else some (rest.takeWhile (· != quoteEnd)).length
      else none := by
  rw [quotedPattern, first_after, first_plus]
  rfl

theorem first_inside (c : CodePoint) (before rest : List CodePoint) (inside : c ≠ quoteEnd) :
    first (quotedPattern name) (c :: before) rest = none := by
  obtain ⟨others, shape⟩ := opening_reverse name
  rw [first_quoted, shape, List.isPrefixOf, beq_eq_false_iff_ne.mpr (Ne.symm inside), Bool.false_and]
  rfl

-- Inside a value no other one starts.
theorem quoted_skip (location skip : Nat) (c : CodePoint) (before text : List CodePoint) (inside : c ≠ quoteEnd)
    (run : skip ≤ (text.takeWhile (· != quoteEnd)).length) :
    findFrom utf16Width (quotedPattern name) location skip (c :: before) text =
      findFrom utf16Width (quotedPattern name) location 0 (c :: before) text := by
  induction skip generalizing location c before text with
  | zero => rfl
  | succ skip ih =>
      cases text with
      | nil => exact absurd run (Nat.not_succ_le_zero skip)
      | cons d text =>
          rw [List.takeWhile_cons] at run
          have within : (d != quoteEnd) = true := by
            by_contra quote
            rw [if_neg quote] at run
            exact Nat.not_succ_le_zero skip run
          rw [if_pos within, List.length_cons] at run
          simp only [findFrom, first_inside name c before (d :: text) inside]
          exact ih _ d (c :: before) text (bne_iff_ne.mp within) (Nat.le_of_succ_le_succ run)

-- The value that starts at a place.
def valueSpan (before text : List Char) : List NSRange :=
  let value := text.takeWhile (· != '"')
  if (name ++ "=\"").toList.isSuffixOf before ∧ value ≠ [] then [⟨before.length, value.length⟩] else []

def valueSpans : List Char → List Char → List NSRange
  | before, [] => valueSpan name before []
  | before, c :: text => valueSpan name before (c :: text) ++ valueSpans (before ++ [c]) text

theorem value_map (text : List Char) :
    (text.map Char.toNat).takeWhile (· != quoteEnd) = (text.takeWhile (· != '"')).map Char.toNat := by
  have same : ((· != quoteEnd) ∘ Char.toNat) = fun c : Char => c != '"' := by
    funext c
    have iff : c.toNat = quoteEnd ↔ c = '"' := Char.toNat_inj (d := '"')
    simp only [Function.comp_apply, bne, Bool.not_inj_iff]
    exact Bool.eq_iff_iff.mpr (by rw [beq_iff_eq, beq_iff_eq, iff])
  rw [List.takeWhile_map, same]

theorem prefix_map (first second : List Char) :
    (first.map Char.toNat).isPrefixOf (second.map Char.toNat) = first.isPrefixOf second := by
  induction first generalizing second with
  | nil => cases second <;> rfl
  | cons c first ih =>
      cases second with
      | nil => rfl
      | cons d second => 
          rw [List.map_cons, List.map_cons, List.isPrefixOf, List.isPrefixOf, ih]
          congr 1
          exact Bool.eq_iff_iff.mpr (by rw [beq_iff_eq, beq_iff_eq, Char.toNat_inj])

theorem first_value (before text : List Char) :
    first (quotedPattern name) (before.map Char.toNat).reverse (text.map Char.toNat) =
      if (name ++ "=\"").toList.isSuffixOf before ∧ text.takeWhile (· != '"') ≠ [] then
        some (text.takeWhile (· != '"')).length
      else none := by
  have behind : (opening name).reverse.isPrefixOf (before.map Char.toNat).reverse =
      (name ++ "=\"").toList.isSuffixOf before := by
    rw [List.isSuffixOf, ← prefix_map, List.map_reverse, List.map_reverse]
    rfl
  rw [first_quoted, behind, value_map]
  by_cases opens : (name ++ "=\"").toList.isSuffixOf before
  · by_cases empty : text.takeWhile (· != '"') = []
    · rw [if_pos opens, if_pos (by rw [empty]; rfl), if_neg fun both => both.2 empty]
    · rw [if_pos opens, if_neg fun absent => empty (List.map_eq_nil_iff.mp absent), if_pos ⟨opens, empty⟩,
        List.length_map]
  · rw [if_neg opens, if_neg fun both => opens both.1]

theorem unit_weight (text : List Char) (widths : ∀ c ∈ text, utf16Width c.toNat = 1) :
    weight utf16Width (text.map Char.toNat) = text.length :=
  (chunk_weight text).trans (unit_count text widths)

theorem quoted_spans (before text : List Char) (widths : ∀ c ∈ text, utf16Width c.toNat = 1) :
    findFrom utf16Width (quotedPattern name) before.length 0 (before.map Char.toNat).reverse (text.map Char.toNat) =
      valueSpans name before text := by
  induction text generalizing before with
  | nil =>
      have found := first_value name before []
      have none_here : valueSpan name before [] = [] := if_neg fun both => both.2 rfl
      rw [if_neg fun both => both.2 rfl] at found
      rw [valueSpans, none_here]
      simp only [List.map_nil] at found ⊢
      simp only [findFrom, found]
  | cons c text ih =>
      obtain ⟨here, later⟩ := List.forall_mem_cons.mp widths
      have found := first_value name before (c :: text)
      have next := ih (before ++ [c]) later
      rw [List.length_append, List.length_singleton, List.map_append, List.reverse_append] at next
      simp only [List.map_cons, List.map_nil, List.reverse_singleton, List.singleton_append] at next found ⊢
      rw [valueSpans, ← next]
      by_cases matched : (name ++ "=\"").toList.isSuffixOf before ∧ (c :: text).takeWhile (· != '"') ≠ []
      · have span : valueSpan name before (c :: text) =
            [⟨before.length, ((c :: text).takeWhile (· != '"')).length⟩] := if_pos matched
        have within : (c != '"') = true := by
          by_contra quote
          rw [List.takeWhile_cons, if_neg quote] at matched
          exact matched.2 rfl
        have shape : (c :: text).takeWhile (· != '"') = c :: text.takeWhile (· != '"') :=
          List.takeWhile_cons_of_pos within
        have inside : c.toNat ≠ quoteEnd := fun quote => bne_iff_ne.mp within (Char.toNat_inj (d := '"').mp quote)
        have front : text.take (text.takeWhile (· != '"')).length = text.takeWhile (· != '"') :=
          (List.prefix_iff_eq_take.mp (List.takeWhile_prefix _)).symm
        have size := unit_weight (c :: text.takeWhile (· != '"'))
          (List.forall_mem_cons.mpr ⟨here, fun d member => later d ((List.takeWhile_prefix _).subset member)⟩)
        have run : (text.takeWhile (· != '"')).length ≤ ((text.map Char.toNat).takeWhile (· != quoteEnd)).length := by
          rw [value_map, List.length_map]
        rw [if_pos matched, shape] at found
        rw [shape] at span
        rw [span]
        simp only [findFrom, found, here, List.length_cons, Nat.add_sub_cancel, List.take_succ_cons, ← List.map_take,
          front]
        rw [quoted_skip name _ _ _ _ _ inside run, ← List.map_cons, size]
        rfl
      · have span : valueSpan name before (c :: text) = [] := if_neg matched
        rw [if_neg matched] at found
        rw [span, List.nil_append]
        simp only [findFrom, found, here]

theorem filter_map_first {α β : Type} (value : α → Option β) (item : α) (items : List α) :
    (item :: items).filterMap value = (value item).toList ++ items.filterMap value := by
  cases here : value item with
  | none => exact List.filterMap_cons_none here
  | some found => exact List.filterMap_cons_some here

theorem span_text (before text : List Char) (single : SingleUnits device (before ++ text)) :
    (valueSpan name before text).filterMap (rangeFrom device (before ++ text)) =
      (valueAt name (before ++ text) before.length).toList.filter fun value => !value.isEmpty := by
  have front := List.takeWhile_prefix (l := text) (· != '"')
  have fits := front.length_le
  have found := single_range device (before ++ text) single before.length (text.takeWhile (· != '"')).length
    (by rw [List.length_append]; omega)
  rw [List.drop_left, ← List.prefix_iff_eq_take.mp front] at found
  unfold valueSpan valueAt
  dsimp only
  rw [List.take_left, List.drop_left]
  by_cases opens : (name ++ "=\"").toList.isSuffixOf before
  · by_cases empty : text.takeWhile (· != '"') = []
    · rw [if_neg fun both => both.2 empty, if_pos opens, empty]
      rfl
    · have filled : (!(text.takeWhile (· != '"')).isEmpty) = true := by
        rw [List.isEmpty_eq_false_iff.mpr empty]
        rfl
      rw [if_pos ⟨opens, empty⟩, if_pos opens, List.filterMap_cons_some found]
      rw [Option.toList_some, List.filter_cons, if_pos filled]
      rfl
  · rw [if_neg fun both => opens both.1, if_neg opens]
    rfl

theorem span_texts (before text : List Char) (single : SingleUnits device (before ++ text)) :
    (valueSpans name before text).filterMap (rangeFrom device (before ++ text)) =
      ((List.range' before.length (text.length + 1)).filterMap (valueAt name (before ++ text))).filter
        fun value => !value.isEmpty := by
  induction text generalizing before with
  | nil =>
      rw [valueSpans, span_text device name before [] single, List.length_nil, List.range'_succ, filter_map_first]
      exact congrArg _ (List.append_nil _).symm
  | cons c text ih =>
      have whole : before ++ c :: text = before ++ [c] ++ text := List.append_cons ..
      have later := ih (before ++ [c]) (whole ▸ single)
      rw [← whole, List.length_append, List.length_singleton] at later
      rw [valueSpans, List.filterMap_append, span_text device name before (c :: text) single, later, List.length_cons]
      rw [List.range'_succ (n := text.length + 1), filter_map_first, List.filter_append]

theorem value_texts (text : List Char) (single : SingleUnits device text) :
    matchTexts device (quotedPattern name) text = attributeValues name text := by
  obtain ⟨_, widths⟩ := single_characters device text single
  have texts := span_texts device name [] text single
  rw [← quoted_spans name [] text widths] at texts
  rw [matchTexts, matchesIn, findAll, single_searched device text single, attributeValues, List.range_eq_range']
  exact texts

end Quoted

end CultivationMotain.CoreTextMagazine

import CultivationMotain.CoreTextMagazine.MarkupParse

set_option autoImplicit false

namespace CultivationMotain.CoreTextMagazine

open Foundation Regex

section Tags

variable {α : Type} (code : α → CodePoint)

-- A match of <[^>]+> at the start of a text, and the text behind it.
def tagAt : List α → Option (List α × List α)
  | [] => none
  | c :: rest =>
      if code c = lessThan then
        match rest.takeWhile (code · != greaterThan), rest.dropWhile (code · != greaterThan) with
        | first :: body, close :: after => some (c :: first :: body ++ [close], after)
        | _, _ => none
      else none

-- The leftmost match, with the text before it and the text behind it.
def nextTag : List α → Option (List α × List α × List α)
  | [] => none
  | c :: rest =>
      match tagAt code (c :: rest) with
      | some (tag, after) => some ([], tag, after)
      | none => (nextTag rest).map fun (text, tag, after) => (c :: text, tag, after)

theorem tag_at_iff (text tag after : List α) :
    tagAt code text = some (tag, after) ↔
      ∃ c body close, tag = c :: body ++ [close] ∧ text = tag ++ after ∧ code c = lessThan ∧ body ≠ [] ∧
        (∀ d ∈ body, code d ≠ greaterThan) ∧ code close = greaterThan := by
  constructor
  · intro found
    cases text with
    | nil => cases found
    | cons c rest =>
        simp only [tagAt] at found
        split at found
        · rename_i opens
          split at found
          · rename_i first body close after_ taken dropped
            cases found
            have whole : rest = (first :: body) ++ (close :: after) := by
              rw [← taken, ← dropped, List.takeWhile_append_dropWhile]
            refine ⟨c, first :: body, close, rfl, ?_, opens, List.cons_ne_nil _ _, fun d member => ?_, ?_⟩
            · rw [whole]
              simp
            · rw [← taken] at member
              simpa using List.mem_takeWhile_imp member
            · have stop := List.head?_dropWhile_not (code · != greaterThan) rest
              simpa [dropped] using stop
          · cases found
        · cases found
  · rintro ⟨c, body, close, rfl, rfl, opens, some_, inside, closes⟩
    obtain ⟨first, others, rfl⟩ := List.exists_cons_of_ne_nil some_
    have taken : ((first :: others) ++ close :: after).takeWhile (code · != greaterThan) = first :: others := by
      rw [take_while_stops _ _ _ _ (by simpa using closes)]
      exact List.takeWhile_eq_self_iff.mpr fun d member => by simpa using inside d member
    have dropped : ((first :: others) ++ close :: after).dropWhile (code · != greaterThan) = close :: after := by
      have whole : ((first :: others) ++ close :: after).takeWhile (code · != greaterThan) ++
          ((first :: others) ++ close :: after).dropWhile (code · != greaterThan) =
            (first :: others) ++ close :: after :=
        List.takeWhile_append_dropWhile
      rw [taken] at whole
      exact List.append_cancel_left whole
    have shape : c :: (first :: others) ++ [close] ++ after = c :: ((first :: others) ++ close :: after) := by simp
    rw [shape]
    simp only [tagAt, opens, if_true, taken, dropped]

theorem next_tag_parts (text before tag after : List α) (found : nextTag code text = some (before, tag, after)) :
    text = before ++ tag ++ after ∧ tagAt code (tag ++ after) = some (tag, after) := by
  induction text generalizing before with
  | nil => cases found
  | cons c rest ih =>
      simp only [nextTag] at found
      split at found
      · rename_i tag_ after_ here
        cases found
        obtain ⟨_, _, _, _, whole, _⟩ := (tag_at_iff code _ _ _).mp here
        exact ⟨whole, whole ▸ here⟩
      · obtain ⟨⟨text_, tag_, after_⟩, later, same⟩ := Option.map_eq_some_iff.mp found
        cases same
        obtain ⟨whole, there⟩ := ih text_ later
        exact ⟨by rw [whole]; rfl, there⟩

theorem tag_at_append (text more tag after : List α) (found : tagAt code text = some (tag, after)) :
    tagAt code (text ++ more) = some (tag, after ++ more) := by
  obtain ⟨c, body, close, shape, rfl, opens, some_, inside, closes⟩ := (tag_at_iff code _ _ _).mp found
  exact (tag_at_iff code _ _ _).mpr ⟨c, body, close, shape, List.append_assoc .., opens, some_, inside, closes⟩

theorem tag_at_front (front more tag after : List α) (found : tagAt code (front ++ more) = some (tag, after))
    (fits : tag.length ≤ front.length) : ∃ rest, tagAt code front = some (tag, rest) := by
  obtain ⟨c, body, close, shape, whole, opens, some_, inside, closes⟩ := (tag_at_iff code _ _ _).mp found
  obtain ⟨rest, rfl⟩ : tag <+: front := List.prefix_of_prefix_length_le ⟨after, whole.symm⟩ ⟨more, rfl⟩ fits
  exact ⟨rest, (tag_at_iff code _ _ _).mpr ⟨c, body, close, shape, rfl, opens, some_, inside, closes⟩⟩

theorem tag_at_snoc (text : List α) (last : α) (plain : code last ≠ greaterThan) :
    tagAt code (text ++ [last]) = (tagAt code text).map fun (tag, after) => (tag, after ++ [last]) := by
  cases found : tagAt code text with
  | some pair => exact tag_at_append code text [last] pair.1 pair.2 found
  | none =>
      cases longer : tagAt code (text ++ [last]) with
      | none => rfl
      | some pair =>
          obtain ⟨tag, after⟩ := pair
          obtain ⟨c, body, close, shape, whole, _, _, _, closes⟩ := (tag_at_iff code _ _ _).mp longer
          have fits : tag.length ≤ text.length := by
            rcases List.eq_nil_or_concat after with rfl | ⟨front, final, rfl⟩
            · rw [List.append_nil, shape] at whole
              obtain ⟨_, same⟩ := List.append_inj' whole rfl
              cases same
              exact absurd closes plain
            · have sizes := congrArg List.length whole
              simp only [List.length_append, List.length_singleton, List.length_concat] at sizes
              omega
          obtain ⟨rest, there⟩ := tag_at_front code text [last] tag after longer fits
          rw [found] at there
          cases there

theorem no_tag_before (c : α) (rest more before tag after : List α) (absent : tagAt code (c :: rest) = none)
    (later : nextTag code rest = some (before, tag, after)) : tagAt code (c :: (rest ++ more)) = none := by
  cases longer : tagAt code (c :: (rest ++ more)) with
  | none => rfl
  | some pair =>
      obtain ⟨tag_, after_⟩ := pair
      by_cases fits : tag_.length ≤ (c :: rest).length
      · obtain ⟨_, there⟩ := tag_at_front code (c :: rest) more tag_ after_ longer fits
        rw [absent] at there
        cases there
      · -- The tag would take all of rest, but the later one closes there.
        obtain ⟨whole, there⟩ := next_tag_parts code rest before tag after later
        obtain ⟨_, body, close, shape, _, _, _, _, closes⟩ := (tag_at_iff code _ _ _).mp there
        obtain ⟨_, body_, close_, rfl, whole_, _, _, inside, _⟩ := (tag_at_iff code _ _ _).mp longer
        simp only [List.cons_append, List.append_assoc, List.cons.injEq] at whole_
        simp only [List.length_cons, List.length_append, List.length_nil] at fits
        have front : rest <+: body_ :=
          List.prefix_of_prefix_length_le ⟨more, whole_.2⟩ ⟨[close_] ++ after_, rfl⟩ (by omega)
        have member : close ∈ rest := by rw [whole, shape]; simp
        exact absurd closes (inside close (front.subset member))

theorem next_tag_append (text more before tag after : List α)
    (found : nextTag code text = some (before, tag, after)) :
    nextTag code (text ++ more) = some (before, tag, after ++ more) := by
  induction text generalizing before with
  | nil => cases found
  | cons c rest ih =>
      simp only [nextTag] at found
      split at found
      · rename_i tag_ after_ here
        cases found
        have there := tag_at_append code (c :: rest) more tag after here
        simp only [List.cons_append] at there
        simp only [List.cons_append, nextTag, there]
      · rename_i absent
        obtain ⟨⟨text_, tag_, after_⟩, later, same⟩ := Option.map_eq_some_iff.mp found
        cases same
        have missing := no_tag_before code c rest more text_ tag_ after_ absent later
        simp only [List.cons_append, nextTag, missing, ih text_ later, Option.map_some]

theorem next_tag_front (front more before tag after : List α)
    (found : nextTag code (front ++ more) = some (before, tag, after))
    (fits : (before ++ tag).length ≤ front.length) : ∃ rest, nextTag code front = some (before, tag, rest) := by
  induction front generalizing before with
  | nil =>
      obtain ⟨_, _, _, rfl, _⟩ := (tag_at_iff code _ _ _).mp (next_tag_parts code _ _ _ _ found).2
      simp at fits
  | cons c front ih =>
      simp only [List.cons_append, nextTag] at found
      split at found
      · rename_i tag_ after_ here
        cases found
        obtain ⟨rest, there⟩ := tag_at_front code (c :: front) more tag after here fits
        exact ⟨rest, by simp only [nextTag, there]⟩
      · rename_i absent
        obtain ⟨⟨text_, tag_, after_⟩, later, same⟩ := Option.map_eq_some_iff.mp found
        cases same
        have missing : tagAt code (c :: front) = none := by
          cases present : tagAt code (c :: front) with
          | none => rfl
          | some pair =>
              have longer := tag_at_append code (c :: front) more pair.1 pair.2 present
              simp only [List.cons_append] at longer
              rw [absent] at longer
              cases longer
        obtain ⟨rest, there⟩ := ih text_ later (Nat.le_of_succ_le_succ fits)
        exact ⟨rest, by simp only [nextTag, missing, there, Option.map_some]⟩

theorem next_tag_snoc (text : List α) (last : α) (plain : code last ≠ greaterThan) :
    nextTag code (text ++ [last]) =
      (nextTag code text).map fun (before, tag, after) => (before, tag, after ++ [last]) := by
  induction text with
  | nil =>
      have missing := tag_at_snoc code [] last plain
      simp only [List.nil_append, tagAt, Option.map_none] at missing
      simp only [List.nil_append, nextTag, tagAt, missing, Option.map_none]
  | cons c rest ih =>
      have here := tag_at_snoc code (c :: rest) last plain
      simp only [List.cons_append] at here
      simp only [List.cons_append, nextTag, here]
      cases tagAt code (c :: rest) with
      | some pair => rfl
      | none =>
          simp only [Option.map_none, ih, Option.map_map]
          rfl

theorem tag_at_map {β : Type} (image : β → α) (text : List β) :
    tagAt code (text.map image) = (tagAt (fun c => code (image c)) text).map fun (tag, after) =>
      (tag.map image, after.map image) := by
  cases text with
  | nil => rfl
  | cons c rest =>
      simp only [List.map_cons, tagAt, List.takeWhile_map, List.dropWhile_map, Function.comp_def]
      split
      · cases rest.takeWhile (fun d => code (image d) != greaterThan) with
        | nil => simp
        | cons first body =>
            cases rest.dropWhile (fun d => code (image d) != greaterThan) with
            | nil => simp
            | cons close after => simp
      · rfl

theorem next_tag_map {β : Type} (image : β → α) (text : List β) :
    nextTag code (text.map image) = (nextTag (fun c => code (image c)) text).map fun (before, tag, after) =>
      (before.map image, tag.map image, after.map image) := by
  induction text with
  | nil => rfl
  | cons c rest ih =>
      have here := tag_at_map code image (c :: rest)
      simp only [List.map_cons] at here
      simp only [List.map_cons, nextTag, here]
      cases tagAt (fun c => code (image c)) (c :: rest) with
      | some pair => rfl
      | none =>
          simp only [Option.map_none, ih, Option.map_map]
          rfl

theorem first_tag [BEq α] (before text : List α) :
    first (tagPattern code) before text = (tagAt code text).map fun (tag, _) => tag.length := by
  have close : (fun c => code c == greaterThan) = fun c => !(code c != greaterThan) := by
    funext c
    simp [bne]
  unfold tagPattern first
  rw [close]
  cases text with
  | nil => rfl
  | cons c rest =>
      have inner := lengths_until (code · != greaterThan) (c :: before) rest
      by_cases opens : code c = lessThan
      · simp only [lengths, opens, beq_self_eq_true, if_true, List.flatMap_cons, List.flatMap_nil, List.append_nil,
          tagAt]
        simp only [lengths] at inner
        simp only [List.take_succ_cons, List.take_zero, List.reverse_singleton, List.singleton_append,
          List.drop_succ_cons, List.drop_zero, inner]
        cases rest.takeWhile (code · != greaterThan) with
        | nil => rfl
        | cons first body =>
            cases rest.dropWhile (code · != greaterThan) with
            | nil => rfl
            | cons close after => simp [Nat.add_comm]
      · simp [lengths, tagAt, opens]

end Tags

theorem chunk_forward : Forward chunkPattern :=
  ⟨trivial, ⟨trivial, ⟨trivial, trivial⟩, trivial⟩, trivial⟩

theorem tag_forward {α : Type} (code : α → CodePoint) : Forward (tagPattern code) :=
  ⟨trivial, ⟨trivial, trivial⟩, trivial⟩

theorem first_chunk (before text : List CodePoint) :
    first chunkPattern before text = some (match nextTag id text with
      | some (front, tag, _) => (front ++ tag).length
      | none => text.length) := by
  have either : ∀ before rest : List CodePoint, first (.alt (tagPattern id) .atEnd) before rest =
      (first (tagPattern id) before rest).or (if rest.isEmpty then some 0 else none) := by
    intro before rest
    simp only [first, lengths, List.head?_append]
    split <;> rfl
  induction text generalizing before with
  | nil => rw [chunkPattern, first_reluctant, either, first_tag]; rfl
  | cons c rest ih =>
      unfold chunkPattern at ih ⊢
      rw [first_reluctant, either, first_tag]
      simp only [ih (c :: before), nextTag]
      cases tagAt id (c :: rest) with
      | some pair => simp
      | none =>
          cases nextTag id rest with
          | none => simp [Nat.add_comm]
          | some parts => simp [Nat.add_comm]

theorem find_chunk_tag (location : Nat) (before other text front tag after : List CodePoint)
    (found : nextTag id text = some (front, tag, after)) :
    findFrom utf16Width chunkPattern location 0 before text =
      ⟨location, weight utf16Width (front ++ tag)⟩ ::
        findFrom utf16Width chunkPattern (location + weight utf16Width (front ++ tag)) 0 other after := by
  obtain ⟨whole, here⟩ := next_tag_parts id text front tag after found
  obtain ⟨_, _, _, shape, _⟩ := (tag_at_iff id _ _ _).mp here
  have size := first_chunk before text
  rw [found] at size
  rw [whole] at size ⊢
  rw [find_match utf16Width chunkPattern location before (front ++ tag) after (by simp [shape]) size]
  rw [find_before utf16Width chunkPattern chunk_forward _ _ _ other]

theorem find_chunk_end (location : Nat) (before text : List CodePoint) (absent : nextTag id text = none) :
    ∃ others, findFrom utf16Width chunkPattern location 0 before text = ⟨location, weight utf16Width text⟩ :: others ∧
      ∀ span ∈ others, span.length = 0 := by
  have size := first_chunk before text
  rw [absent] at size
  cases text with
  | nil => exact ⟨[], by simp [findFrom, size], fun _ member => (nomatch member)⟩
  | cons c rest =>
      refine ⟨findFrom utf16Width chunkPattern (location + weight utf16Width (c :: rest)) 0
        ((c :: rest).reverse ++ before) [], ?_, fun span member => ?_⟩
      · have matched := find_match utf16Width chunkPattern location before (c :: rest) [] (List.cons_ne_nil _ _)
          (by rw [List.append_nil]; exact size)
        rwa [List.append_nil] at matched
      · have bounds := find_within utf16Width chunkPattern _ 0 _ [] span member
        rw [weight_nil] at bounds
        omega

def replacedTag (tag : List Char) : List Char := if "<img".toList.isPrefixOf tag then [' '] else []

-- The markup with its tags deleted, but a space for each image.
def plainText (markup : List Char) : List Char := replaceAll (tagPattern Char.toNat) replacedTag markup

theorem replace_next (before markup : List Char) :
    replaceFrom (tagPattern Char.toNat) replacedTag 0 before markup =
      match nextTag Char.toNat markup with
      | none => markup
      | some (text, tag, after) => text ++ replacedTag tag ++ plainText after := by
  induction markup generalizing before with
  | nil =>
      have none_ := first_tag Char.toNat before []
      simp only [tagAt, Option.map_none] at none_
      simp only [replaceFrom, none_, nextTag]
  | cons c rest ih =>
      have size := first_tag Char.toNat before (c :: rest)
      cases here : tagAt Char.toNat (c :: rest) with
      | some pair =>
          obtain ⟨tag, after⟩ := pair
          obtain ⟨_, _, _, shape, whole, _⟩ := (tag_at_iff _ _ _ _).mp here
          simp only [nextTag, here]
          rw [here, whole] at size
          rw [whole, replace_match _ _ before tag after (by simp [shape]) size,
            replace_before _ (tag_forward Char.toNat) _ 0 _ []]
          rfl
      | none =>
          rw [here, Option.map_none] at size
          simp only [replaceFrom, size, ih, nextTag, here]
          cases nextTag Char.toNat rest with
          | none => rfl
          | some parts => rfl

-- A stretch of the markup: the text up to a tag, and the tag; behind the last
-- tag, the rest of the text.
structure Chunk where
  location : Nat
  text : List Char
  tag : List Char
deriving DecidableEq, Repr

def Chunk.plain (chunk : Chunk) : List Char := chunk.text ++ replacedTag chunk.tag

theorem next_tag_shorter (markup text tag after : List Char)
    (found : nextTag Char.toNat markup = some (text, tag, after)) : after.length < markup.length := by
  obtain ⟨whole, here⟩ := next_tag_parts _ _ _ _ _ found
  obtain ⟨_, _, _, shape, _⟩ := (tag_at_iff _ _ _ _).mp here
  simp only [whole, shape, List.length_append, List.length_cons, List.length_nil]
  omega

def chunksFrom (location : Nat) (markup : List Char) : List Chunk :=
  match found : nextTag Char.toNat markup with
  | none => [⟨location, markup, []⟩]
  | some (text, tag, after) =>
      have := next_tag_shorter markup text tag after found
      ⟨location, text, tag⟩ :: chunksFrom (location + utf16Count (text ++ tag)) after
termination_by markup.length

theorem chunks_tag (location : Nat) (markup text tag after : List Char)
    (found : nextTag Char.toNat markup = some (text, tag, after)) :
    chunksFrom location markup = ⟨location, text, tag⟩ :: chunksFrom (location + utf16Count (text ++ tag)) after := by
  rw [chunksFrom]
  split
  · rename_i absent
    rw [found] at absent
    cases absent
  · rename_i there
    rw [found] at there
    cases there
    rfl

theorem chunks_end (location : Nat) (markup : List Char) (absent : nextTag Char.toNat markup = none) :
    chunksFrom location markup = [⟨location, markup, []⟩] := by
  rw [chunksFrom]
  split
  · rfl
  · rename_i found
    rw [absent] at found
    cases found

theorem plain_text_chunks (location : Nat) (markup : List Char) :
    plainText markup = (chunksFrom location markup).flatMap Chunk.plain := by
  fun_induction chunksFrom location markup with
  | case1 location markup absent =>
      rw [plainText, replaceAll, replace_next, absent]
      simp [Chunk.plain, replacedTag]
  | case2 location markup text tag after found _ ih =>
      rw [List.flatMap_cons, ← ih, plainText, replaceAll, replace_next, found]
      rfl

theorem tag_opens (tag after : List Char) (here : tagAt Char.toNat (tag ++ after) = some (tag, after)) :
    ∃ body, tag = '<' :: body := by
  obtain ⟨c, body, close, shape, _, opens, _⟩ := (tag_at_iff _ _ _ _).mp here
  have same : c = '<' := Char.toNat_inj.mp opens
  exact ⟨body ++ [close], by rw [shape, same]; rfl⟩

theorem chunk_position (location : Nat) (markup : List Char) (chunk : Chunk)
    (member : chunk ∈ chunksFrom location markup) :
    ∃ before after, markup = before ++ (chunk.text ++ chunk.tag) ++ after ∧
      chunk.location = location + utf16Count before ∧ (chunk.tag = [] ∨ ∃ body, chunk.tag = '<' :: body) := by
  fun_induction chunksFrom location markup with
  | case1 location markup absent =>
      obtain rfl := List.mem_singleton.mp member
      exact ⟨[], [], by simp, rfl, .inl rfl⟩
  | case2 location markup text tag after found _ ih =>
      obtain ⟨whole, here⟩ := next_tag_parts _ _ _ _ _ found
      rcases List.mem_cons.mp member with rfl | later
      · exact ⟨[], after, whole, rfl, .inr (tag_opens tag after here)⟩
      · obtain ⟨before, rest, inside, place, opens⟩ := ih later
        refine ⟨text ++ tag ++ before, rest, ?_, ?_, opens⟩
        · rw [whole, inside]
          simp
        · rw [place, utf16_count_append (text ++ tag), Nat.add_assoc]

end CultivationMotain.CoreTextMagazine

import CultivationMotain.Foundation.UTF16

set_option autoImplicit false

namespace CultivationMotain.TextKit

open Foundation Regex

structure Edit where
  range : NSRange
  str : List CodeUnit

def Edit.Fits (edit : Edit) (text : List CodeUnit) : Prop := edit.range.location + edit.range.length ≤ text.length

def Edit.apply (edit : Edit) (text : List CodeUnit) : List CodeUnit :=
  text.take edit.range.location ++ edit.str ++ text.drop (edit.range.location + edit.range.length)

def Edit.editedRange (edit : Edit) : NSRange := ⟨edit.range.location, edit.str.length⟩

def Edit.firstParagraph (edit : Edit) (text : List CodeUnit) : Nat :=
  paragraphStart (edit.apply text) edit.range.location

def Edit.lastParagraph (edit : Edit) (text : List CodeUnit) : Nat := paragraphEnd (edit.apply text) edit.editedRange

def Edit.paragraphs (edit : Edit) (text : List CodeUnit) : NSRange := paragraphRange (edit.apply text) edit.editedRange

-- Where a character behind the inserted text was before.
def Edit.source (edit : Edit) (i : Nat) : Nat := i - edit.str.length + edit.range.length

-- An insertion ends a paragraph, whatever follows.
def EndsParagraph (str rest : List CodeUnit) : Prop :=
  ∃ front last, str = front ++ [last] ∧ isParagraphSeparator last = true ∧
    ¬ (last = carriageReturn ∧ rest.head? = some lineFeed)

-- What a text highlights, found in every paragraph on its own.
structure ParagraphLocal (covers : List CodeUnit → Nat → Prop) : Prop where
  within : ∀ text i, covers text i → i < text.length
  append : ∀ before after i, ParagraphBoundary before after →
    (covers (before ++ after) i ↔ covers before i ∨ before.length ≤ i ∧ covers after (i - before.length))

theorem boundary_next (before after other : List CodeUnit) (boundary : ParagraphBoundary before after)
    (next : after.head? = other.head?) : ParagraphBoundary before other := by
  rcases boundary with empty | rfl | ⟨front, last, rfl, separates, whole⟩
  · exact .inl empty
  · exact .inr (.inl (List.head?_eq_none_iff.mp next.symm))
  · exact .inr (.inr ⟨front, last, rfl, separates, next ▸ whole⟩)

theorem boundary_swap (front other middle after : List CodeUnit) (nonempty : middle ≠ [])
    (boundary : ParagraphBoundary (front ++ middle) after) : ParagraphBoundary (other ++ middle) after := by
  rcases boundary with empty | done | ⟨contents, last, whole, separates, unsplit⟩
  · exact absurd (List.append_eq_nil_iff.mp empty).2 nonempty
  · exact .inr (.inl done)
  · obtain ⟨rest, final, rfl⟩ := (List.eq_nil_or_concat middle).resolve_left nonempty
    rw [List.concat_eq_append, ← List.append_assoc] at whole
    obtain ⟨_, same⟩ := List.append_inj' whole rfl
    cases same
    refine .inr (.inr ⟨other ++ rest, last, ?_, separates, unsplit⟩)
    rw [List.concat_eq_append, List.append_assoc]

section Local

variable (covers : List CodeUnit → Nat → Prop)

theorem covers_take (paragraphs : ParagraphLocal covers) (text : List CodeUnit) (n : Nat) (inside : n ≤ text.length)
    (boundary : ParagraphBoundary (text.take n) (text.drop n)) (i : Nat) (early : i < n) :
    covers text i ↔ covers (text.take n) i := by
  have parts := paragraphs.append _ _ i boundary
  rw [List.take_append_drop, List.length_take, Nat.min_eq_left inside] at parts
  rw [parts]
  exact ⟨fun either => either.resolve_right fun late => absurd late.1 (Nat.not_le_of_lt early), .inl⟩

theorem covers_drop (paragraphs : ParagraphLocal covers) (text : List CodeUnit) (n : Nat) (inside : n ≤ text.length)
    (boundary : ParagraphBoundary (text.take n) (text.drop n)) (i : Nat) :
    covers text (n + i) ↔ covers (text.drop n) i := by
  have parts := paragraphs.append _ _ (n + i) boundary
  rw [List.take_append_drop, List.length_take, Nat.min_eq_left inside, Nat.add_sub_cancel_left] at parts
  rw [parts]
  constructor
  · intro either
    rcases either with early | late
    · have short := paragraphs.within _ _ early
      rw [List.length_take] at short
      omega
    · exact late.2
  · exact fun late => .inr ⟨Nat.le_add_right .., late⟩

end Local

section Patterns

variable (pattern : Pattern CodePoint)
  (within : ∀ unit, isParagraphSeparator unit = true → Within (· == unit.toNat) pattern)

def PatternCovers (text : List CodeUnit) (i : Nat) : Prop := Covers (findAll utf16Width pattern (decode text)) i

theorem pattern_within (text : List CodeUnit) (i : Nat) (covered : PatternCovers pattern text i) : i < text.length := by
  rw [← decode_weight text]
  exact covered_within utf16Width pattern (decode text) i covered

theorem pattern_nil (i : Nat) : ¬ PatternCovers pattern [] i :=
  fun covered => absurd (pattern_within pattern [] i covered) (Nat.not_lt_zero i)

include within

theorem pattern_append (before after : List CodeUnit) (unit : CodeUnit) (separates : isParagraphSeparator unit = true)
    (i : Nat) : PatternCovers pattern (before ++ unit :: after) i ↔
      PatternCovers pattern before i ∨
        before.length + 1 ≤ i ∧ PatternCovers pattern after (i - (before.length + 1)) := by
  obtain ⟨notHigh, notLow⟩ := separator_not_surrogate unit separates
  have pieces :=
    covers_local (· == unit.toNat) utf16Width pattern (within unit separates) (decode before) (decode after)
      unit.toNat (beq_self_eq_true _) i
  rwa [← decode_append before after unit notHigh notLow, decode_weight, unit_width] at pieces

-- Any paragraph separator splits the text for a pattern that takes none, a
-- carriage return before its line feed as well.
theorem pattern_split (before after : List CodeUnit) (i : Nat)
    (separated : before = [] ∨ after = [] ∨ ∃ front last, before = front ++ [last] ∧ isParagraphSeparator last = true) :
    PatternCovers pattern (before ++ after) i ↔
      PatternCovers pattern before i ∨ before.length ≤ i ∧ PatternCovers pattern after (i - before.length) := by
  rcases separated with rfl | rfl | ⟨front, last, rfl, separates⟩
  · simp [pattern_nil]
  · simp [pattern_nil]
  · have alone : PatternCovers pattern (front ++ [last]) i ↔ PatternCovers pattern front i := by
      rw [pattern_append pattern within front [] last separates]
      simp [pattern_nil]
    rw [alone, List.append_assoc, List.singleton_append, pattern_append pattern within front after last separates,
      List.length_append, List.length_singleton]

theorem pattern_local : ParagraphLocal (PatternCovers pattern) where
  within text i covered := pattern_within pattern text i covered
  append before after i boundary := by
    refine pattern_split pattern within before after i ?_
    rcases boundary with empty | done | ⟨front, last, whole, separates, _⟩
    · exact .inl empty
    · exact .inr (.inl done)
    · exact .inr (.inr ⟨front, last, whole, separates⟩)

end Patterns

section Editing

variable (edit : Edit) (text : List CodeUnit)

theorem apply_length (fits : edit.Fits text) :
    (edit.apply text).length + edit.range.length = text.length + edit.str.length := by
  unfold Edit.Fits at fits
  simp only [Edit.apply, List.length_append, List.length_take, List.length_drop]
  omega

theorem edited_within (fits : edit.Fits text) :
    edit.editedRange.location + edit.editedRange.length ≤ (edit.apply text).length := by
  have size := apply_length edit text fits
  unfold Edit.Fits at fits
  simp only [Edit.editedRange]
  omega

theorem first_paragraph_le : edit.firstParagraph text ≤ edit.range.location := paragraph_start_le ..

theorem last_paragraph_bounds (fits : edit.Fits text) :
    edit.range.location + edit.str.length ≤ edit.lastParagraph text ∧
      edit.lastParagraph text ≤ (edit.apply text).length := by
  obtain ⟨after, bound, _⟩ := paragraph_end_cases (edit.apply text) edit.editedRange (edited_within edit text fits)
  exact ⟨after, bound⟩

theorem paragraphs_inside (fits : edit.Fits text) (i : Nat) :
    ((edit.paragraphs text).location ≤ i ∧ i < (edit.paragraphs text).location + (edit.paragraphs text).length) ↔
      edit.firstParagraph text ≤ i ∧ i < edit.lastParagraph text := by
  have start := first_paragraph_le edit text
  obtain ⟨end_, _⟩ := last_paragraph_bounds edit text fits
  have sum : edit.firstParagraph text + (edit.lastParagraph text - edit.firstParagraph text) =
      edit.lastParagraph text := by
    omega
  exact and_congr_right fun _ => by rw [← sum]; exact Iff.rfl

theorem apply_take (fits : edit.Fits text) :
    (edit.apply text).take (edit.firstParagraph text) = text.take (edit.firstParagraph text) := by
  have start := first_paragraph_le edit text
  unfold Edit.Fits at fits
  rw [Edit.apply, List.append_assoc, List.take_append_of_le_length (by rw [List.length_take]; omega), List.take_take,
    Nat.min_eq_left start]

theorem apply_drop (fits : edit.Fits text) (place : Nat) (behind : edit.range.location + edit.str.length ≤ place) :
    (edit.apply text).drop place = text.drop (edit.source place) := by
  unfold Edit.Fits at fits
  have front : (text.take edit.range.location ++ edit.str).length = edit.range.location + edit.str.length := by
    simp only [List.length_append, List.length_take]
    omega
  rw [Edit.apply, List.drop_append, List.drop_eq_nil_of_le (by omega), List.nil_append, List.drop_drop, front]
  congr 1
  unfold Edit.source
  omega

theorem location_within (fits : edit.Fits text) : edit.range.location ≤ (edit.apply text).length := by
  have within := edited_within edit text fits
  simp only [Edit.editedRange] at within
  omega

theorem start_boundary (fits : edit.Fits text) :
    ParagraphBoundary ((edit.apply text).take (edit.firstParagraph text))
      ((edit.apply text).drop (edit.firstParagraph text)) :=
  paragraph_start_boundary _ _ (location_within edit text fits)

theorem end_boundary (fits : edit.Fits text) :
    ParagraphBoundary ((edit.apply text).take (edit.lastParagraph text))
      ((edit.apply text).drop (edit.lastParagraph text)) :=
  (paragraph_end_cases _ _ (edited_within edit text fits)).2.2

theorem old_start_boundary (fits : edit.Fits text)
    (before : edit.firstParagraph text ≠ edit.range.location) :
    ParagraphBoundary (text.take (edit.firstParagraph text)) (text.drop (edit.firstParagraph text)) := by
  have boundary := start_boundary edit text fits
  rw [apply_take edit text fits] at boundary
  refine boundary_next _ _ _ boundary ?_
  have start := first_paragraph_le edit text
  have inside : edit.firstParagraph text < edit.range.location := by omega
  unfold Edit.Fits at fits
  rw [List.head?_drop, List.head?_drop, Edit.apply, List.append_assoc, List.getElem?_append_left,
    List.getElem?_take_of_lt inside]
  rw [List.length_take]
  omega

theorem old_end_boundary (fits : edit.Fits text)
    (behind : edit.lastParagraph text ≠ edit.range.location + edit.str.length) :
    ParagraphBoundary (text.take (edit.source (edit.lastParagraph text)))
      (text.drop (edit.source (edit.lastParagraph text))) := by
  obtain ⟨after, bound⟩ := last_paragraph_bounds edit text fits
  have size := apply_length edit text fits
  unfold Edit.Fits at fits
  have source : edit.source (edit.lastParagraph text) = edit.range.location + edit.range.length +
      (edit.lastParagraph text - (edit.range.location + edit.str.length)) := by
    unfold Edit.source
    omega
  have boundary := end_boundary edit text fits
  rw [apply_drop edit text fits _ after] at boundary
  -- Both sides end in the same part of the old text.
  have newFront : (edit.apply text).take (edit.lastParagraph text) =
      (text.take edit.range.location ++ edit.str) ++ (text.drop (edit.range.location + edit.range.length)).take
        (edit.lastParagraph text - (edit.range.location + edit.str.length)) := by
    have front : (text.take edit.range.location ++ edit.str).length = edit.range.location + edit.str.length := by
      simp only [List.length_append, List.length_take]
      omega
    rw [Edit.apply, List.take_append, List.take_of_length_le (by omega), front]
  have oldFront : text.take (edit.source (edit.lastParagraph text)) =
      text.take (edit.range.location + edit.range.length) ++ (text.drop (edit.range.location + edit.range.length)).take
        (edit.lastParagraph text - (edit.range.location + edit.str.length)) := by
    rw [source, List.take_add]
  rw [newFront] at boundary
  rw [oldFront]
  refine boundary_swap _ _ _ _ ?_ boundary
  refine List.ne_nil_of_length_pos ?_
  simp only [List.length_take, List.length_drop]
  omega

theorem last_paragraph_iff (fits : edit.Fits text) :
    edit.lastParagraph text = edit.range.location + edit.str.length ↔
      text.drop (edit.range.location + edit.range.length) = [] ∨
        EndsParagraph edit.str (text.drop (edit.range.location + edit.range.length)) := by
  obtain ⟨rest, behind⟩ : ∃ rest, text.drop (edit.range.location + edit.range.length) = rest := ⟨_, rfl⟩
  have fitted : edit.range.location ≤ text.length := by
    unfold Edit.Fits at fits
    omega
  have front : (text.take edit.range.location).length = edit.range.location := by
    rw [List.length_take]
    omega
  rw [behind]
  rcases List.eq_nil_or_concat edit.str with empty | ⟨contents, last, whole⟩
  · have from_ : (edit.apply text).drop edit.range.location = rest := by
      rw [Edit.apply, empty, List.append_nil, behind, List.drop_left' front]
    have end_ : edit.lastParagraph text = edit.range.location + paragraphLength rest := by
      rw [← from_, Edit.lastParagraph, paragraphEnd, Edit.editedRange, empty]
      rfl
    rw [end_, empty, List.length_nil, Nat.add_left_cancel_iff, paragraph_length_zero]
    refine ⟨.inl, fun either => either.resolve_right fun ends => ?_⟩
    obtain ⟨_, _, absent, _⟩ := ends
    simp at absent
  · rw [List.concat_eq_append] at whole
    have size : edit.str.length = contents.length + 1 := by rw [whole, List.length_append, List.length_singleton]
    have from_ : (edit.apply text).drop (edit.range.location + contents.length) = last :: rest := by
      have shape : edit.apply text = (text.take edit.range.location ++ contents) ++ (last :: rest) := by
        simp [Edit.apply, whole, behind]
      rw [shape, List.drop_left' (by rw [List.length_append, front])]
    have end_ : edit.lastParagraph text = edit.range.location + contents.length + paragraphLength (last :: rest) := by
      rw [← from_, Edit.lastParagraph, paragraphEnd, Edit.editedRange]
      simp only [size, Nat.succ_ne_zero, if_false]
      rfl
    have ends : EndsParagraph edit.str rest ↔
        isParagraphSeparator last = true ∧ ¬ (last = carriageReturn ∧ rest.head? = some lineFeed) := by
      constructor
      · rintro ⟨other, unit, same, alone⟩
        obtain ⟨_, single⟩ := List.append_inj' (whole.symm.trans same) rfl
        obtain rfl := List.singleton_inj.mp single
        exact alone
      · exact fun alone => ⟨contents, last, whole, alone⟩
    rw [end_, size, ← Nat.add_assoc, Nat.add_left_cancel_iff, paragraph_length_one, ends]

theorem covers_inside (covers : List CodeUnit → Nat → Prop) (paragraphs : ParagraphLocal covers)
    (fits : edit.Fits text) (i : Nat) :
    ((edit.paragraphs text).location ≤ i ∧ covers (((edit.apply text).drop (edit.paragraphs text).location).take
        (edit.paragraphs text).length) (i - (edit.paragraphs text).location)) ↔
      edit.firstParagraph text ≤ i ∧ i < edit.lastParagraph text ∧ covers (edit.apply text) i := by
  obtain ⟨after, bound⟩ := last_paragraph_bounds edit text fits
  have start := first_paragraph_le edit text
  change (edit.firstParagraph text ≤ i ∧ covers (((edit.apply text).drop (edit.firstParagraph text)).take
    (edit.lastParagraph text - edit.firstParagraph text)) (i - edit.firstParagraph text)) ↔ _
  refine and_congr_right fun behind => ?_
  obtain ⟨k, rfl⟩ := Nat.exists_eq_add_of_le behind
  rw [covers_drop covers paragraphs _ _ (by omega) (start_boundary edit text fits), Nat.add_sub_cancel_left]
  by_cases before : edit.firstParagraph text + k < edit.lastParagraph text
  · obtain ⟨size, whole⟩ : ∃ size, edit.lastParagraph text = edit.firstParagraph text + size :=
      Nat.exists_eq_add_of_le (by omega)
    have boundary := end_boundary edit text fits
    rw [whole, List.take_add, ← List.drop_drop] at boundary
    have room : size ≤ ((edit.apply text).drop (edit.firstParagraph text)).length := by
      rw [List.length_drop]
      omega
    have contents : ((edit.apply text).drop (edit.firstParagraph text)).take size ≠ [] := by
      refine List.ne_nil_of_length_pos ?_
      rw [List.length_take]
      omega
    have inner := boundary_swap _ [] _ _ contents boundary
    rw [List.nil_append] at inner
    rw [covers_take covers paragraphs _ size room inner k (by omega), whole, Nat.add_sub_cancel_left]
    exact (and_iff_right (by omega)).symm
  · refine iff_of_false (fun covered => ?_) fun both => before both.1
    have inside := paragraphs.within _ _ covered
    rw [List.length_take] at inside
    omega

end Editing

-- The text next to the edited paragraphs is highlighted in the old text as on
-- its own, where the replaced range was not apart from it.
def Unaffected (covers : List CodeUnit → Nat → Prop) (text : List CodeUnit) (edit : Edit) : Prop :=
  (edit.firstParagraph text = edit.range.location →
    ∀ i, i < edit.range.location → (covers text i ↔ covers (text.take edit.range.location) i)) ∧
  (edit.lastParagraph text = edit.range.location + edit.str.length →
    ∀ i, covers text (edit.range.location + edit.range.length + i) ↔
      covers (text.drop (edit.range.location + edit.range.length)) i)

-- The replaced range starts with the line feed of a line ending, and there is
-- none in its place.
def SplitsLineEnding (text : List CodeUnit) (edit : Edit) : Prop :=
  (text.take edit.range.location).getLast? = some carriageReturn ∧
    (text.drop edit.range.location).head? = some lineFeed ∧
    ((edit.apply text).drop edit.range.location).head? ≠ some lineFeed

theorem apply_take_location (edit : Edit) (text : List CodeUnit) (fits : edit.Fits text) :
    (edit.apply text).take edit.range.location = text.take edit.range.location := by
  unfold Edit.Fits at fits
  rw [Edit.apply, List.append_assoc]
  refine List.take_left' ?_
  rw [List.length_take]
  omega

theorem split_first_paragraph (edit : Edit) (text : List CodeUnit) (fits : edit.Fits text)
    (splits : SplitsLineEnding text edit) : edit.firstParagraph text = edit.range.location := by
  obtain ⟨return_, _, other⟩ := splits
  rw [List.head?_drop] at other
  obtain ⟨front, whole⟩ := List.getLast?_eq_some_iff.mp return_
  unfold Edit.firstParagraph paragraphStart
  dsimp only
  rw [if_neg fun inside => other inside.2.2, apply_take_location edit text fits, whole]
  simp [isParagraphSeparator]

theorem unsplit_boundary (edit : Edit) (text : List CodeUnit) (fits : edit.Fits text)
    (same : edit.firstParagraph text = edit.range.location) (unsplit : ¬ SplitsLineEnding text edit) :
    ParagraphBoundary (text.take edit.range.location) (text.drop edit.range.location) := by
  have start := paragraph_start_cases _ _ (location_within edit text fits)
  change (edit.apply text).take (edit.firstParagraph text) = [] ∨ ∃ front last,
    (edit.apply text).take (edit.firstParagraph text) = front ++ [last] ∧ _ ∧
      ¬ (last = carriageReturn ∧ ((edit.apply text).drop (edit.firstParagraph text)).head? = _) at start
  rw [same, apply_take_location edit text fits] at start
  rcases start with empty | ⟨front, last, whole, separates, apart⟩
  · exact .inl empty
  · refine .inr (.inr ⟨front, last, whole, separates, ?_⟩)
    rintro ⟨rfl, feed⟩
    exact unsplit ⟨by rw [whole, List.getLast?_concat], feed, fun kept => apart ⟨rfl, kept⟩⟩

theorem unaffected_iff (covers : List CodeUnit → Nat → Prop) (paragraphs : ParagraphLocal covers)
    (edit : Edit) (text : List CodeUnit) (fits : edit.Fits text) :
    Unaffected covers text edit ↔
      (SplitsLineEnding text edit →
        ∀ i, i < edit.range.location → (covers text i ↔ covers (text.take edit.range.location) i)) ∧
      (EndsParagraph edit.str (text.drop (edit.range.location + edit.range.length)) →
        ∀ i, covers text (edit.range.location + edit.range.length + i) ↔
          covers (text.drop (edit.range.location + edit.range.length)) i) := by
  have last := last_paragraph_iff edit text fits
  have fitted : edit.range.location + edit.range.length ≤ text.length := fits
  constructor
  · rintro ⟨head, tail⟩
    exact ⟨fun splits => head (split_first_paragraph edit text fits splits), fun ends => tail (last.mpr (.inr ends))⟩
  · rintro ⟨head, tail⟩
    refine ⟨fun same => ?_, fun same i => ?_⟩
    · by_cases splits : SplitsLineEnding text edit
      · exact head splits
      · intro i early
        exact covers_take covers paragraphs text _ (by omega) (unsplit_boundary edit text fits same splits) i early
    · rcases last.mp same with done | ends
      · rw [done]
        have short := List.drop_eq_nil_iff.mp done
        refine iff_of_false (fun covered => ?_) fun covered => ?_
        · have inside := paragraphs.within _ _ covered
          omega
        · exact absurd (paragraphs.within _ _ covered) (Nat.not_lt_zero _)
      · exact tail ends i

theorem outside_iff (covers : List CodeUnit → Nat → Prop) (paragraphs : ParagraphLocal covers)
    (edit : Edit) (text : List CodeUnit) (fits : edit.Fits text) :
    ((∀ i, i < edit.firstParagraph text → (covers text i ↔ covers (edit.apply text) i)) ∧
      ∀ i, edit.lastParagraph text ≤ i → (covers text (edit.source i) ↔ covers (edit.apply text) i)) ↔
    Unaffected covers text edit := by
  obtain ⟨behind, bound⟩ := last_paragraph_bounds edit text fits
  have start := first_paragraph_le edit text
  have size := apply_length edit text fits
  have fitted : edit.range.location + edit.range.length ≤ text.length := fits
  have newBefore : ∀ i, i < edit.firstParagraph text →
      (covers (edit.apply text) i ↔ covers (text.take (edit.firstParagraph text)) i) := by
    intro i early
    rw [covers_take covers paragraphs _ _ (by omega) (start_boundary edit text fits) i early,
      apply_take edit text fits]
  have newAfter : ∀ i, covers (edit.apply text) (edit.lastParagraph text + i) ↔
      covers (text.drop (edit.source (edit.lastParagraph text))) i := by
    intro i
    rw [covers_drop covers paragraphs _ _ bound (end_boundary edit text fits), apply_drop edit text fits _ behind]
  have sources : ∀ i, edit.source (edit.lastParagraph text + i) = edit.source (edit.lastParagraph text) + i := by
    intro i
    unfold Edit.source
    omega
  constructor
  · rintro ⟨before, after⟩
    refine ⟨fun same i early => ?_, fun same i => ?_⟩
    · rw [← same] at early ⊢
      exact (before i early).trans (newBefore i early)
    · have moved : edit.source (edit.lastParagraph text) = edit.range.location + edit.range.length := by
        unfold Edit.source
        omega
      have there := after (edit.lastParagraph text + i) (Nat.le_add_right ..)
      rwa [sources, newAfter, moved] at there
  · rintro ⟨before, after⟩
    refine ⟨fun i early => ?_, fun i late => ?_⟩
    · rw [newBefore i early]
      by_cases same : edit.firstParagraph text = edit.range.location
      · rw [same] at early ⊢
        exact before same i early
      · exact covers_take covers paragraphs text _ (by omega) (old_start_boundary edit text fits same) i early
    · obtain ⟨k, rfl⟩ := Nat.exists_eq_add_of_le late
      rw [sources, newAfter]
      by_cases same : edit.lastParagraph text = edit.range.location + edit.str.length
      · have moved : edit.source (edit.lastParagraph text) = edit.range.location + edit.range.length := by
          unfold Edit.source
          omega
        rw [moved]
        exact after same k
      · have inside : edit.source (edit.lastParagraph text) ≤ text.length := by
          unfold Edit.source
          omega
        exact covers_drop covers paragraphs text _ inside (old_end_boundary edit text fits same) k

-- Marks that were right for the old text, moved with it, are right for the new
-- text if they are in the edited paragraphs and what is outside is unaffected.
theorem recoloured_iff (covers : List CodeUnit → Nat → Prop) (paragraphs : ParagraphLocal covers)
    (edit : Edit) (text : List CodeUnit) (fits : edit.Fits text) (old new : Nat → Prop)
    (correct : ∀ i, old i ↔ covers text i) (before : ∀ i, i < edit.firstParagraph text → (new i ↔ old i))
    (behind : ∀ i, edit.lastParagraph text ≤ i → (new i ↔ old (edit.source i))) :
    (∀ i, new i ↔ covers (edit.apply text) i) ↔
      (∀ i, edit.firstParagraph text ≤ i → i < edit.lastParagraph text → (new i ↔ covers (edit.apply text) i)) ∧
        Unaffected covers text edit := by
  rw [← outside_iff covers paragraphs edit text fits]
  constructor
  · intro all
    refine ⟨fun i _ _ => all i, fun i early => ?_, fun i late => ?_⟩
    · rw [← correct, ← before i early, all]
    · rw [← correct, ← behind i late, all]
  · rintro ⟨inside, early, late⟩ i
    by_cases before_ : i < edit.firstParagraph text
    · rw [before i before_, correct, early i before_]
    · by_cases behind_ : edit.lastParagraph text ≤ i
      · rw [behind i behind_, correct, late i behind_]
      · exact inside i (Nat.le_of_not_lt before_) (Nat.lt_of_not_le behind_)

end CultivationMotain.TextKit

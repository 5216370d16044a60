import CultivationMotain.Library.Runs
import CultivationMotain.TextKit.AttributedString
import CultivationMotain.TextKit.EditedParagraphs
import Mathlib.Data.List.ReduceOption

set_option autoImplicit false

namespace CultivationMotain.TextKit.PMTextStorage

open Foundation Regex Runs

structure Link where
  range : NSRange
  url : URL
deriving DecidableEq, Repr

-- What the detector calls the block with over a text: a link or, for a report
-- of its progress, nil.
structure LinkDetector where
  reports : List CodeUnit → List (Option Link)
  paragraphs : ParagraphLocal fun text i => Covers ((reports text).reduceOption.map Link.range) i

def yellowColor : AttributeValue := .color "yellow"

def underlineStyleSingle : AttributeValue := .number 1

def addLink (s : MutableAttributedString) (result : Link) : MutableAttributedString :=
  let linked := addAttribute s .link (.url result.url) result.range
  let coloured := addAttribute linked .backgroundColor yellowColor result.range
  addAttribute coloured .underlineStyle underlineStyleSingle result.range

section Storage

variable (detector : LinkDetector)

def links (text : List CodeUnit) : List Link := (detector.reports text).reduceOption

def shiftLink (offset : Nat) (link : Link) : Link := { link with range := link.range.shift offset }

def matchesInString (text : List CodeUnit) (range : NSRange) : List (Option Link) :=
  (detector.reports ((text.drop range.location).take range.length)).map (Option.map (shiftLink range.location))

-- None is an exception: for a range beyond the end, or for the nil that a
-- report of progress would add as an attribute.
def replaceCharactersInRange (s : MutableAttributedString) (range : NSRange) (str : List CodeUnit) :
    Option MutableAttributedString := do
  let imp ← replaceCharacters s range str
  let textRange := paragraphRange (string imp) ⟨range.location, str.length⟩
  let imp := removeAttribute imp .link textRange
  let imp := removeAttribute imp .underlineStyle textRange
  let imp := removeAttribute imp .documentBackgroundColor textRange
  (matchesInString detector (string imp) textRange).foldlM (fun s result => result.map (addLink s)) imp

def step (storage : MutableAttributedString) (edit : Edit) : Option MutableAttributedString :=
  replaceCharactersInRange detector storage edit.range edit.str

end Storage

section Linking

variable (detector : LinkDetector)

def InLink (text : List CodeUnit) (i : Nat) : Prop := Covers ((links detector text).map Link.range) i

-- Each of the three attributes is on the characters of the links in the whole
-- text and on no others.
structure Linked (storage : MutableAttributedString) : Prop where
  link : ∀ i, Holds (Carries .link) storage i ↔ InLink detector (string storage) i
  underline : ∀ i, Holds (Carries .underlineStyle) storage i ↔ InLink detector (string storage) i
  background : ∀ i, Holds (Carries .backgroundColor) storage i ↔ InLink detector (string storage) i

-- The character of the old text whose attributes a character of the new one
-- starts with.
def origin (edit : Edit) (i : Nat) : Nat :=
  if i < edit.range.location then i
  else if i < edit.range.location + edit.str.length then inheritedFrom edit.range
  else edit.source i

-- The old text next to the edited paragraphs has the same links on its own,
-- and a character of the edited paragraphs that starts with the attributes of
-- one in a link is in a link again.
structure Careful (before : MutableAttributedString) (edit : Edit) : Prop where
  head : SplitsLineEnding (string before) edit → ∀ i, i < edit.range.location →
    (InLink detector (string before) i ↔ InLink detector ((string before).take edit.range.location) i)
  tail : EndsParagraph edit.str ((string before).drop (edit.range.location + edit.range.length)) →
    ∀ i, InLink detector (string before) (edit.range.location + edit.range.length + i) ↔
      InLink detector ((string before).drop (edit.range.location + edit.range.length)) i
  fresh : ∀ i, edit.firstParagraph (string before) ≤ i → i < edit.lastParagraph (string before) →
    InLink detector (string before) (origin edit i) → InLink detector (edit.apply (string before)) i

theorem matches_links (text : List CodeUnit) (range : NSRange) :
    (matchesInString detector text range).reduceOption =
      (links detector ((text.drop range.location).take range.length)).map (shiftLink range.location) := by
  unfold matchesInString links
  exact List.reduceOption_map

theorem matches_cover (text : List CodeUnit) (range : NSRange) (i : Nat) :
    Covers ((matchesInString detector text range).reduceOption.map Link.range) i ↔
      range.location ≤ i ∧ InLink detector ((text.drop range.location).take range.length) (i - range.location) := by
  rw [matches_links, List.map_map]
  have shifted : Link.range ∘ shiftLink range.location = (fun span => span.shift range.location) ∘ Link.range := rfl
  rw [shifted, ← List.map_map, covers_shift, InLink]

theorem add_links (results : List (Option Link)) (s next : MutableAttributedString)
    (added : results.foldlM (fun s result => result.map (addLink s)) s = some next) :
    next = results.reduceOption.foldl addLink s := by
  induction results generalizing s with
  | nil => exact (Option.some.inj added).symm
  | cons result results ih =>
      obtain ⟨middle, first, rest⟩ := Option.bind_eq_some_iff.mp added
      obtain ⟨link, rfl, rfl⟩ := Option.map_eq_some_iff.mp first
      exact ih (addLink s link) rest

theorem add_link_string (s : MutableAttributedString) (result : Link) : string (addLink s result) = string s := by
  simp only [addLink, add_string]

theorem add_link_carries (name : AttributeKey) (marks : name = .link ∨ name = .underlineStyle ∨ name = .backgroundColor)
    (s : MutableAttributedString) (result : Link) (i : Nat) :
    Holds (Carries name) (addLink s result) i ↔ Holds (Carries name) s i ∨ i < s.length ∧ Covers [result.range] i := by
  unfold addLink
  simp only [carries_add, add_length, or_assoc]
  refine or_congr_right ?_
  rcases marks with rfl | rfl | rfl
  · simp
  · simp
  · simp

-- The background is not among the attributes that are removed.
theorem edit_carries (before next : MutableAttributedString) (edit : Edit)
    (taken : step detector before edit = some next) :
    ∃ imp, replaceCharacters before edit.range edit.str = some imp ∧ string next = string imp ∧
      ∀ name, (name = .link ∨ name = .underlineStyle ∨ name = .backgroundColor) → ∀ i,
        (Holds (Carries name) next i ↔
          (edit.firstParagraph (string before) ≤ i ∧ i < edit.lastParagraph (string before) ∧
            InLink detector (edit.apply (string before)) i) ∨
          (name ≠ .backgroundColor → ¬ (edit.firstParagraph (string before) ≤ i ∧
            i < edit.lastParagraph (string before))) ∧ Holds (Carries name) imp i) := by
  obtain ⟨imp, replaced, rest⟩ := Option.bind_eq_some_iff.mp taken
  have whole := add_links _ _ _ rest
  have text : string imp = edit.apply (string before) := replace_string before imp edit.range edit.str replaced
  have fits : edit.Fits (string before) := replace_fits before imp edit.range edit.str replaced
  have range : paragraphRange (string imp) ⟨edit.range.location, edit.str.length⟩ =
      edit.paragraphs (string before) := by
    rw [text]
    rfl
  have inside := covers_inside edit (string before) (InLink detector) detector.paragraphs fits
  rw [range] at whole
  refine ⟨imp, replaced, ?_, fun name marks i => ?_⟩
  · rw [whole, add_all_string addLink add_link_string]
    simp only [remove_string]
  · rw [whole, holds_add_all (Carries name) addLink Link.range add_link_string (add_link_carries name marks),
      matches_cover]
    simp only [remove_string, remove_length, text, carries_remove, paragraphs_inside edit _ fits, inside]
    rw [or_comm]
    refine or_congr (and_iff_right_of_imp fun covered => ?_) ?_
    · have bound := detector.paragraphs.within _ _ covered.2.2
      rwa [← text, string_length] at bound
    · rcases marks with rfl | rfl | rfl
      · simp
      · simp
      · simp

theorem replaced_carries (before imp : MutableAttributedString) (edit : Edit)
    (replaced : replaceCharacters before edit.range edit.str = some imp) (name : AttributeKey) (i : Nat) :
    Holds (Carries name) imp i ↔ Holds (Carries name) before (origin edit i) := by
  unfold origin
  split
  · exact holds_replace_before before imp edit.range edit.str _ replaced i (by assumption)
  · split
    · exact holds_replace_inserted before imp edit.range edit.str _ (by simp [Carries]) replaced i (by omega)
        (by assumption)
    · exact holds_replace_behind before imp edit.range edit.str _ replaced i (by omega)

theorem step_linked_iff (before next : MutableAttributedString) (edit : Edit) (linked : Linked detector before)
    (taken : step detector before edit = some next) : Linked detector next ↔ Careful detector before edit := by
  obtain ⟨imp, replaced, same, carries⟩ := edit_carries detector before next edit taken
  have text : string imp = edit.apply (string before) := replace_string before imp edit.range edit.str replaced
  have fits : edit.Fits (string before) := replace_fits before imp edit.range edit.str replaced
  have start := first_paragraph_le edit (string before)
  obtain ⟨end_, _⟩ := last_paragraph_bounds edit (string before) fits
  have recoloured : ∀ name, (name = .link ∨ name = .underlineStyle ∨ name = .backgroundColor) →
      (∀ i, Holds (Carries name) before i ↔ InLink detector (string before) i) →
      ((∀ i, Holds (Carries name) next i ↔ InLink detector (string next) i) ↔
        (∀ i, edit.firstParagraph (string before) ≤ i → i < edit.lastParagraph (string before) →
          (Holds (Carries name) next i ↔ InLink detector (edit.apply (string before)) i)) ∧
        Unaffected (InLink detector) (string before) edit) := by
    intro name marks correct
    rw [same, text]
    refine recoloured_iff (InLink detector) detector.paragraphs edit _ fits _ _ correct ?_ ?_
    · intro i early
      rw [carries name marks, holds_replace_before before imp edit.range edit.str _ replaced i (by omega)]
      exact ⟨fun either => either.elim (fun inside => absurd inside.1 (Nat.not_le_of_lt early)) And.right,
        fun holds => .inr ⟨fun _ inside => absurd inside.1 (Nat.not_le_of_lt early), holds⟩⟩
    · intro i late
      rw [carries name marks, holds_replace_behind before imp edit.range edit.str _ replaced i (by omega)]
      exact ⟨fun either => either.elim (fun inside => absurd inside.2.1 (Nat.not_lt_of_le late)) And.right,
        fun holds => .inr ⟨fun _ inside => absurd inside.2 (Nat.not_lt_of_le late), holds⟩⟩
  have cleared : ∀ name, (name = .link ∨ name = .underlineStyle ∨ name = .backgroundColor) →
      name ≠ .backgroundColor → ∀ i, edit.firstParagraph (string before) ≤ i → i < edit.lastParagraph (string before) →
        (Holds (Carries name) next i ↔ InLink detector (edit.apply (string before)) i) := by
    intro name marks removed i behind early
    rw [carries name marks]
    exact ⟨fun either => either.elim (fun inside => inside.2.2) fun outside =>
      absurd ⟨behind, early⟩ (outside.1 removed), fun covered => .inl ⟨behind, early, covered⟩⟩
  have unaffected := unaffected_iff (InLink detector) detector.paragraphs edit (string before) fits
  constructor
  · intro good
    obtain ⟨inside, outside⟩ := (recoloured .backgroundColor (.inr (.inr rfl)) linked.background).mp good.background
    obtain ⟨head, tail⟩ := unaffected.mp outside
    refine ⟨head, tail, fun i behind early stale => (inside i behind early).mp ?_⟩
    rw [carries .backgroundColor (.inr (.inr rfl)), replaced_carries before imp edit replaced, linked.background]
    exact .inr ⟨fun other => absurd rfl other, stale⟩
  · intro careful
    have outside := unaffected.mpr ⟨careful.head, careful.tail⟩
    refine ⟨?_, ?_, ?_⟩
    · exact (recoloured .link (.inl rfl) linked.link).mpr ⟨cleared .link (.inl rfl) (by decide), outside⟩
    · exact (recoloured .underlineStyle (.inr (.inl rfl)) linked.underline).mpr
        ⟨cleared .underlineStyle (.inr (.inl rfl)) (by decide), outside⟩
    · refine (recoloured .backgroundColor (.inr (.inr rfl)) linked.background).mpr ⟨fun i behind early => ?_, outside⟩
      rw [carries .backgroundColor (.inr (.inr rfl)), replaced_carries before imp edit replaced, linked.background]
      exact ⟨fun either => either.elim (fun inside => inside.2.2) fun stale => careful.fresh i behind early stale.2,
        fun covered => .inl ⟨behind, early, covered⟩⟩

theorem in_link_nil (i : Nat) : ¬ InLink detector [] i :=
  fun covered => absurd (detector.paragraphs.within _ _ covered) (Nat.not_lt_zero _)

end Linking

theorem linking_iff (detector : LinkDetector) (edits : List Edit) :
    Steps (step detector) (fun _ _ next => Linked detector next) [] edits ↔
      Steps (step detector) (fun before edit _ => Careful detector before edit) [] edits := by
  have start : Linked detector [] := by
    refine ⟨fun i => ?_, fun i => ?_, fun i => ?_⟩
    · simp [Holds, string, in_link_nil]
    · simp [Holds, string, in_link_nil]
    · simp [Holds, string, in_link_nil]
  exact steps_iff (step detector) (Linked detector) _ _
    (fun before edit next linked taken => step_linked_iff detector before next edit linked taken)
    (fun _ _ _ _ _ good => good) [] edits start

def sampleDetector : LinkDetector where
  reports text := (findAll utf16Width (.literal ("www.a.co".toList.map Char.toNat)) (decode text)).map fun range =>
    some ⟨range, ⟨"http://www.a.co", []⟩⟩
  paragraphs := by
    have within : ∀ unit, isParagraphSeparator unit = true →
        Within (· == unit.toNat) (.literal ("www.a.co".toList.map Char.toNat)) := by
      intro unit separates
      simp only [isParagraphSeparator, Bool.or_eq_true, beq_iff_eq] at separates
      rcases separates with (rfl | rfl) | rfl
      · exact literal_within _ _ (by decide)
      · exact literal_within _ _ (by decide)
      · exact literal_within _ _ (by decide)
    have covers : ParagraphLocal fun text i =>
        PatternCovers (.literal ("www.a.co".toList.map Char.toNat)) text i := pattern_local _ within
    simpa [PatternCovers, List.reduceOption, List.filterMap_map, Function.comp_def] using covers

-- Text typed in place of a link takes its yellow background, which nothing
-- removes: another key is cleared.
theorem replaced_link_stays_yellow :
    ¬ ∀ edits, Steps (step sampleDetector) (fun _ _ next => Linked sampleDetector next) [] edits := by
  intro all
  have last := steps_after _ _ [] _ [⟨⟨0, 0⟩, encode "www.a.co".toList⟩] [⟨⟨0, 8⟩, encode "hello".toList⟩] rfl (all _)
  obtain ⟨linked, _⟩ := last _ rfl
  have covered := (linked.background 0).mp ⟨_, rfl, rfl⟩
  have found : links sampleDetector (encode "hello".toList) = [] := by decide
  obtain ⟨span, member, _⟩ : Covers ((links sampleDetector (encode "hello".toList)).map Link.range) 0 := covered
  rw [found] at member
  cases member

end CultivationMotain.TextKit.PMTextStorage

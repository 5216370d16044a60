import CultivationMotain.Library.Runs
import CultivationMotain.TextKit.AttributedString
import CultivationMotain.TextKit.EditedParagraphs

set_option autoImplicit false

namespace CultivationMotain.TextKit.PLTextStore

open Foundation Regex Runs

structure UnicodeProperties where
  alphabetic : CodePoint → Bool
  uppercase : CodePoint → Bool
  separators : ∀ unit : CodeUnit, isParagraphSeparator unit = true → alphabetic unit.toNat = false

def redColor : AttributeValue := .color "red"

section Store

variable (unicode : UnicodeProperties)

-- i[\p{Alphabetic}&&\p{Uppercase}][\p{Alphabetic}]+
def iExpression : Pattern CodePoint :=
  .seq (.one (· == 0x69))
    (.seq (.one fun c => unicode.alphabetic c && unicode.uppercase c) (.plus unicode.alphabetic))

def iWords (text : List CodeUnit) : List NSRange := findAll utf16Width (iExpression unicode) (decode text)

def matchesInString (text : List CodeUnit) (range : NSRange) : List NSRange :=
  (iWords unicode ((text.drop range.location).take range.length)).map fun result => result.shift range.location

def processEditing (imp : MutableAttributedString) (editedRange : NSRange) : MutableAttributedString :=
  let range := paragraphRange (string imp) editedRange
  let cleared := removeAttribute imp .foregroundColor range
  (matchesInString unicode (string cleared) range).foldl
    (fun s result => addAttribute s .foregroundColor redColor result) cleared

def step (store : MutableAttributedString) (edit : Edit) : Option MutableAttributedString :=
  (replaceCharacters store edit.range edit.str).map fun imp => processEditing unicode imp edit.editedRange

end Store

def IsRed (attributes : Attributes) : Prop := attributes .foregroundColor = some redColor

section Highlighting

variable (unicode : UnicodeProperties)

def InWord (text : List CodeUnit) (i : Nat) : Prop := Covers (iWords unicode text) i

-- The characters coloured red are those of the matches in the whole text.
def Highlighted (store : MutableAttributedString) : Prop :=
  ∀ i, Holds IsRed store i ↔ InWord unicode (string store) i

-- Behind an insertion that ends a paragraph, the old text is coloured as it
-- would be without the text before.
def Careful (before : MutableAttributedString) (edit : Edit) : Prop :=
  let behind := edit.range.location + edit.range.length
  EndsParagraph edit.str ((string before).drop behind) →
    ∀ i, InWord unicode (string before) (behind + i) ↔ InWord unicode ((string before).drop behind) i

theorem i_expression_within (unit : CodeUnit) (separates : isParagraphSeparator unit = true) :
    Within (· == unit.toNat) (iExpression unicode) := by
  have notI : unit.toNat ≠ 0x69 := by
    simp only [isParagraphSeparator, Bool.or_eq_true, beq_iff_eq] at separates
    rcases separates with (rfl | rfl) | rfl
    · decide
    · decide
    · decide
  have outside : ∀ c, (c == unit.toNat) = true → unicode.alphabetic c = false := fun c same =>
    beq_iff_eq.mp same ▸ unicode.separators unit separates
  refine ⟨fun c same => ?_, fun c same => ?_, outside, outside⟩
  · exact beq_eq_false_iff_ne.mpr fun isI => notI ((beq_iff_eq.mp same).symm.trans isI)
  · simp only [outside c same, Bool.false_and]

theorem in_word_local : ParagraphLocal (InWord unicode) := pattern_local _ (i_expression_within unicode)

theorem matches_cover (text : List CodeUnit) (range : NSRange) (i : Nat) :
    Covers (matchesInString unicode text range) i ↔
      range.location ≤ i ∧ InWord unicode ((text.drop range.location).take range.length) (i - range.location) :=
  covers_shift ..

theorem processed_red (before imp : MutableAttributedString) (edit : Edit) (fits : edit.Fits (string before))
    (text : string imp = edit.apply (string before)) (i : Nat) :
    Holds IsRed (processEditing unicode imp edit.editedRange) i ↔
      (edit.firstParagraph (string before) ≤ i ∧ i < edit.lastParagraph (string before) ∧
          InWord unicode (edit.apply (string before)) i) ∨
        ¬ (edit.firstParagraph (string before) ≤ i ∧ i < edit.lastParagraph (string before)) ∧ Holds IsRed imp i := by
  have added := holds_add_all IsRed (fun s result => addAttribute s .foregroundColor redColor result) id
    (fun s result => add_string ..)
    (holds_add .foregroundColor redColor IsRed fun attributes => Function.update_self ..)
  have removed := holds_remove .foregroundColor IsRed (fun attributes lost => by simp [IsRed] at lost) imp
    (edit.paragraphs (string before)) i
  have range : paragraphRange (string imp) edit.editedRange = edit.paragraphs (string before) := by
    rw [text]
    rfl
  have inside := covers_inside edit (string before) (InWord unicode) (in_word_local unicode) fits i
  unfold processEditing
  dsimp only
  rw [range, added, List.map_id, removed, matches_cover, remove_string, remove_length, text, inside,
    paragraphs_inside edit _ fits, or_comm]
  refine or_congr_left (and_iff_right_of_imp fun covered => ?_)
  have bound := (in_word_local unicode).within _ _ covered.2.2
  rwa [← text, string_length] at bound

theorem processed_string (imp : MutableAttributedString) (editedRange : NSRange) :
    string (processEditing unicode imp editedRange) = string imp :=
  (add_all_string _ (fun _ _ => add_string ..) _ _).trans (remove_string ..)

theorem careful_iff (before : MutableAttributedString) (edit : Edit) (fits : edit.Fits (string before)) :
    Careful unicode before edit ↔ Unaffected (InWord unicode) (string before) edit := by
  rw [unaffected_iff (InWord unicode) (in_word_local unicode) edit _ fits]
  refine (and_iff_right fun splits i early => ?_).symm
  -- A carriage return keeps words apart also where its line feed follows.
  obtain ⟨front, whole⟩ := List.getLast?_eq_some_iff.mp splits.1
  have pieces := pattern_split _ (i_expression_within unicode) _ ((string before).drop edit.range.location) i
    (.inr (.inr ⟨front, carriageReturn, whole, rfl⟩))
  rw [List.take_append_drop, List.length_take] at pieces
  unfold Edit.Fits at fits
  exact pieces.trans ⟨fun either => either.resolve_right fun late => by omega, .inl⟩

theorem step_highlighted_iff (before next : MutableAttributedString) (edit : Edit)
    (highlighted : Highlighted unicode before) (taken : step unicode before edit = some next) :
    Highlighted unicode next ↔ Careful unicode before edit := by
  obtain ⟨imp, replaced, rfl⟩ := Option.map_eq_some_iff.mp taken
  have text : string imp = edit.apply (string before) := replace_string before imp edit.range edit.str replaced
  have fits : edit.Fits (string before) := replace_fits before imp edit.range edit.str replaced
  have start := first_paragraph_le edit (string before)
  obtain ⟨end_, _⟩ := last_paragraph_bounds edit (string before) fits
  have red := processed_red unicode before imp edit fits text
  rw [careful_iff unicode before edit fits, Highlighted, processed_string, text,
    recoloured_iff (InWord unicode) (in_word_local unicode) edit _ fits (Holds IsRed before) _ highlighted ?_ ?_]
  · refine and_iff_right fun i behind early => ?_
    rw [red]
    exact ⟨fun either => either.elim (fun inside => inside.2.2) fun outside => absurd ⟨behind, early⟩ outside.1,
      fun covered => .inl ⟨behind, early, covered⟩⟩
  · intro i early
    rw [red, holds_replace_before before imp edit.range edit.str IsRed replaced i (by omega)]
    exact ⟨fun either => either.elim (fun inside => absurd inside.1 (Nat.not_le_of_lt early)) And.right,
      fun holds => .inr ⟨fun inside => absurd inside.1 (Nat.not_le_of_lt early), holds⟩⟩
  · intro i late
    rw [red, holds_replace_behind before imp edit.range edit.str IsRed replaced i (by omega)]
    exact ⟨fun either => either.elim (fun inside => absurd inside.2.1 (Nat.not_lt_of_le late)) And.right,
      fun holds => .inr ⟨fun inside => absurd inside.2 (Nat.not_lt_of_le late), holds⟩⟩

end Highlighting

theorem highlighting_iff (unicode : UnicodeProperties) (edits : List Edit) :
    Steps (step unicode) (fun _ _ next => Highlighted unicode next) [] edits ↔
      Steps (step unicode) (fun before edit _ => Careful unicode before edit) [] edits :=
  steps_iff (step unicode) (Highlighted unicode) _ _
    (fun before edit next highlighted taken => step_highlighted_iff unicode before next edit highlighted taken)
    (fun _ _ _ _ _ good => good) [] edits fun i => iff_of_false (by simp [Holds]) (pattern_nil (iExpression unicode) i)

def asciiProperties : UnicodeProperties where
  alphabetic c := (0x41 ≤ c && c ≤ 0x5A) || (0x61 ≤ c && c ≤ 0x7A)
  uppercase c := 0x41 ≤ c && c ≤ 0x5A
  separators unit separates := by
    simp only [isParagraphSeparator, Bool.or_eq_true, beq_iff_eq] at separates
    rcases separates with (rfl | rfl) | rfl
    · decide
    · decide
    · decide

-- A line feed typed into iFooBar splits the word: the edited paragraph is
-- iFoo, and Bar stays red.
theorem split_word_stays_red :
    ¬ ∀ edits, Steps (step asciiProperties) (fun _ _ next => Highlighted asciiProperties next) [] edits := by
  intro all
  have last := steps_after _ _ [] _ [⟨⟨0, 0⟩, encode "iFooBar".toList⟩] [⟨⟨4, 0⟩, encode "\n".toList⟩] rfl (all _)
  obtain ⟨highlighted, _⟩ := last _ rfl
  have covered := (highlighted 6).mp ⟨_, rfl, rfl⟩
  have found : iWords asciiProperties (encode "iFoo\nBar".toList) = [⟨0, 4⟩] := by decide
  obtain ⟨span, member, _, stop⟩ : Covers (iWords asciiProperties (encode "iFoo\nBar".toList)) 6 := covered
  rw [found] at member
  obtain rfl := List.mem_singleton.mp member
  exact absurd stop (by decide)

end CultivationMotain.TextKit.PLTextStore

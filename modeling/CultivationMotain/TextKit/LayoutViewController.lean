import CultivationMotain.TextKit.PMTextStorage
import Mathlib.Tactic.IntervalCases

set_option autoImplicit false

namespace CultivationMotain.TextKit.LayoutViewController

open Foundation Regex PMTextStorage

section Delegate

-- The range that attribute:atIndex:effectiveRange: reports is not promised to
-- be the longest one.
variable (effectiveRange : MutableAttributedString → AttributeKey → Nat → NSRange)

-- None is the exception for an index beyond the end.
def attributeAtIndex (s : MutableAttributedString) (name : AttributeKey) (location : Nat) :
    Option (Option AttributeValue × NSRange) :=
  s[location]?.map fun character => (character.attributes name, effectiveRange s name location)

def shouldBreakLineByWordBeforeCharacterAtIndex (textStorage : MutableAttributedString) (charIndex : Nat) :
    Option Bool :=
  (attributeAtIndex effectiveRange textStorage .link charIndex).map fun (url, range) =>
    if url.isSome ∧ range.location < charIndex ∧ charIndex ≤ range.length then false else true

-- The links are where the text carries the attribute.
def CarriesLinks (textStorage : MutableAttributedString) (links : List NSRange) : Prop :=
  ∀ i, Holds (Carries .link) textStorage i ↔ Covers links i

-- An index in a link has the whole link as its effective range, so links that
-- share an index are the same.
def ReportsWhole (textStorage : MutableAttributedString) (links : List NSRange) : Prop :=
  ∀ link ∈ links, ∀ i, Covers [link] i → effectiveRange textStorage .link i = link

def AfterStart (links : List NSRange) (charIndex : Nat) : Prop :=
  ∃ link ∈ links, link.location < charIndex ∧ charIndex < link.location + link.length

def KeepsLinks (textStorage : MutableAttributedString) (links : List NSRange) (charIndex : Nat) : Prop :=
  ∃ answer, shouldBreakLineByWordBeforeCharacterAtIndex effectiveRange textStorage charIndex = some answer ∧
    (answer = false ↔ AfterStart links charIndex)

variable (textStorage : MutableAttributedString) (links : List NSRange) (charIndex : Nat)

theorem breaks_outside (carries : CarriesLinks textStorage links) (inside : charIndex < textStorage.length)
    (outside : ¬ Covers links charIndex) :
    shouldBreakLineByWordBeforeCharacterAtIndex effectiveRange textStorage charIndex = some true := by
  have plain : textStorage[charIndex].attributes .link = none := by
    by_contra linked
    exact outside ((carries charIndex).mp
      ⟨_, List.getElem?_eq_getElem inside, Option.isSome_iff_ne_none.mpr linked⟩)
  simp [shouldBreakLineByWordBeforeCharacterAtIndex, attributeAtIndex, List.getElem?_eq_getElem inside, plain]

-- The length of the link stands where its end should.
theorem breaks_in_link (carries : CarriesLinks textStorage links)
    (whole : ReportsWhole effectiveRange textStorage links) (link : NSRange) (listed : link ∈ links)
    (covered : Covers [link] charIndex) :
    shouldBreakLineByWordBeforeCharacterAtIndex effectiveRange textStorage charIndex =
      some (if link.location < charIndex ∧ charIndex ≤ link.length then false else true) := by
  obtain ⟨character, present, url⟩ : Holds (Carries .link) textStorage charIndex :=
    (carries charIndex).mpr ⟨link, listed, by simpa [Covers] using covered⟩
  have linked : (character.attributes .link).isSome := url
  rw [shouldBreakLineByWordBeforeCharacterAtIndex, attributeAtIndex, present, Option.map_some, Option.map_some]
  simp only [linked, whole link listed charIndex covered, true_and]

theorem whole_unique (whole : ReportsWhole effectiveRange textStorage links) (link other : NSRange)
    (listed : link ∈ links) (member : other ∈ links) (covered : Covers [link] charIndex)
    (shared : Covers [other] charIndex) : other = link := by
  rw [← whole other member charIndex shared, whole link listed charIndex covered]

-- What the delegate answers: it says no behind the start of a link as long as
-- the index is not greater than the length of the link.
theorem answers_no_iff (carries : CarriesLinks textStorage links)
    (whole : ReportsWhole effectiveRange textStorage links) (inside : charIndex < textStorage.length) :
    ∃ answer, shouldBreakLineByWordBeforeCharacterAtIndex effectiveRange textStorage charIndex = some answer ∧
      (answer = false ↔ ∃ link ∈ links, (link.location < charIndex ∧ charIndex < link.location + link.length) ∧
        charIndex ≤ link.length) := by
  by_cases covered : Covers links charIndex
  · obtain ⟨link, listed, start, stop⟩ := covered
    have within : Covers [link] charIndex := ⟨link, List.mem_singleton_self link, start, stop⟩
    refine ⟨_, breaks_in_link effectiveRange textStorage links charIndex carries whole link listed within, ?_⟩
    constructor
    · intro no
      by_cases later : link.location < charIndex ∧ charIndex ≤ link.length
      · exact ⟨link, listed, ⟨later.1, stop⟩, later.2⟩
      · rw [if_neg later] at no
        cases no
    · rintro ⟨other, member, ⟨later, before⟩, short⟩
      have shared : Covers [other] charIndex := ⟨other, List.mem_singleton_self other, later.le, before⟩
      obtain rfl := whole_unique effectiveRange textStorage links charIndex whole link other listed member within shared
      exact if_pos ⟨later, short⟩
  · refine ⟨true, breaks_outside effectiveRange textStorage links charIndex carries inside covered, ?_⟩
    refine iff_of_false Bool.noConfusion ?_
    rintro ⟨link, listed, ⟨later, before⟩, _⟩
    exact covered ⟨link, listed, later.le, before⟩

end Delegate

-- The longest range around an index over which the attribute is the same.
def longestEffectiveRange (s : MutableAttributedString) (name : AttributeKey) (location : Nat) : NSRange :=
  let value := s[location]?.map fun character => character.attributes name
  let same := fun character : AttributedUnit => some (character.attributes name) == value
  let front := ((s.take location).reverse.takeWhile same).length
  ⟨location - front, front + ((s.drop location).takeWhile same).length⟩

def plainText (text : String) : MutableAttributedString := (encode text.toList).map fun unit => ⟨unit, fun _ => none⟩

theorem plain_text_bare (text : String) (i : Nat) : ¬ Holds (Carries .link) (plainText text) i := by
  rintro ⟨character, present, url⟩
  rw [plainText, List.getElem?_map] at present
  obtain ⟨unit, _, rfl⟩ := Option.map_eq_some_iff.mp present
  cases url

def homepage (text : String) (range : NSRange) : MutableAttributedString :=
  addLink (plainText text) ⟨range, ⟨"http://www.a.co", []⟩⟩

theorem homepage_carries (text : String) (range : NSRange)
    (fits : range.location + range.length ≤ (plainText text).length) : CarriesLinks (homepage text range) [range] := by
  intro i
  rw [homepage, add_link_carries .link (.inl rfl)]
  constructor
  · intro either
    exact either.elim (fun bare => absurd bare (plain_text_bare text i)) And.right
  · intro covered
    obtain ⟨span, listed, _, stop⟩ := id covered
    rw [List.mem_singleton.mp listed] at stop
    exact .inr ⟨stop.trans_le fits, covered⟩

theorem homepage_whole : ReportsWhole longestEffectiveRange (homepage "at www.a.co" ⟨3, 8⟩) [⟨3, 8⟩] := by
  intro link listed i covered
  obtain rfl := List.mem_singleton.mp listed
  obtain ⟨span, only, start, stop⟩ := covered
  obtain rfl := List.mem_singleton.mp only
  change 3 ≤ i at start
  change i < 11 at stop
  interval_cases i <;> decide

theorem keeps_links_iff (effectiveRange : MutableAttributedString → AttributeKey → Nat → NSRange)
    (textStorage : MutableAttributedString) (links : List NSRange) (charIndex : Nat)
    (carries : CarriesLinks textStorage links) (whole : ReportsWhole effectiveRange textStorage links)
    (inside : charIndex < textStorage.length) :
    KeepsLinks effectiveRange textStorage links charIndex ↔
      ∀ link ∈ links, link.location < charIndex → charIndex < link.location + link.length →
        charIndex ≤ link.length := by
  obtain ⟨answer, answered, no⟩ := answers_no_iff effectiveRange textStorage links charIndex carries whole inside
  constructor
  · rintro ⟨given, same, kept⟩ link listed later before
    obtain rfl := Option.some.inj (answered.symm.trans same)
    obtain ⟨other, member, inner, short⟩ := no.mp (kept.mpr ⟨link, listed, later, before⟩)
    have within : Covers [link] charIndex := ⟨link, List.mem_singleton_self link, later.le, before⟩
    have shared : Covers [other] charIndex := ⟨other, List.mem_singleton_self other, inner.1.le, inner.2⟩
    rwa [whole_unique effectiveRange textStorage links charIndex whole link other listed member within shared] at short
  · intro short
    refine ⟨answer, answered, no.trans ⟨?_, ?_⟩⟩
    · exact fun ⟨link, listed, inner, _⟩ => ⟨link, listed, inner⟩
    · exact fun ⟨link, listed, inner⟩ => ⟨link, listed, inner, short link listed inner.1 inner.2⟩

theorem homepage_kept : KeepsLinks longestEffectiveRange (homepage "at www.a.co" ⟨3, 8⟩) [⟨3, 8⟩] 8 := by
  refine (keeps_links_iff longestEffectiveRange (homepage "at www.a.co" ⟨3, 8⟩) [⟨3, 8⟩] 8
    (homepage_carries _ _ (by decide)) homepage_whole (by decide)).mpr fun link listed _ _ => ?_
  rw [List.mem_singleton.mp listed]

-- Three characters later the link is not recognized any more: the index is
-- greater than the length of the link.
theorem homepage_broken :
    ¬ ∀ effectiveRange textStorage links charIndex, CarriesLinks textStorage links →
        ReportsWhole effectiveRange textStorage links → charIndex < textStorage.length →
        KeepsLinks effectiveRange textStorage links charIndex := by
  intro all
  obtain ⟨answer, answered, kept⟩ := all longestEffectiveRange (homepage "at www.a.co" ⟨3, 8⟩) [⟨3, 8⟩] 9
    (homepage_carries _ _ (by decide)) homepage_whole (by decide)
  have breaks : shouldBreakLineByWordBeforeCharacterAtIndex longestEffectiveRange
      (homepage "at www.a.co" ⟨3, 8⟩) 9 = some true := by decide
  have inside : AfterStart [⟨3, 8⟩] 9 := ⟨⟨3, 8⟩, List.mem_singleton_self _, by decide, by decide⟩
  rw [breaks] at answered
  obtain rfl := Option.some.inj answered
  exact Bool.noConfusion (kept.mpr inside)

end CultivationMotain.TextKit.LayoutViewController

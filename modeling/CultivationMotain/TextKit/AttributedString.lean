import CultivationMotain.Foundation.URL
import CultivationMotain.Foundation.UTF16

set_option autoImplicit false

namespace CultivationMotain.TextKit

open Foundation Regex

inductive AttributeKey where
  | foregroundColor
  | link
  | underlineStyle
  | backgroundColor
  | documentBackgroundColor
deriving DecidableEq, Repr

inductive AttributeValue where
  | color (name : String)
  | url (url : URL)
  | number (value : Int)
deriving DecidableEq, Repr

abbrev Attributes := AttributeKey → Option AttributeValue

structure AttributedUnit where
  unit : CodeUnit
  attributes : Attributes

abbrev MutableAttributedString := List AttributedUnit

def string (s : MutableAttributedString) : List CodeUnit := s.map AttributedUnit.unit

-- New characters take the attributes of the first one replaced; where nothing
-- is replaced, of the one before, and at the start of the one behind.
def inheritedFrom (range : NSRange) : Nat :=
  if range.length = 0 ∧ 0 < range.location then range.location - 1 else range.location

def inheritedAttributes (s : MutableAttributedString) (range : NSRange) : Attributes :=
  match s[inheritedFrom range]? with
  | some character => character.attributes
  | none => fun _ => none

-- None is the exception for a range beyond the end.
def replaceCharacters (s : MutableAttributedString) (range : NSRange) (str : List CodeUnit) :
    Option MutableAttributedString :=
  if range.location + range.length ≤ s.length then
    some (s.take range.location ++ str.map (fun unit => ⟨unit, inheritedAttributes s range⟩) ++
      s.drop (range.location + range.length))
  else none

def changeAttributes (s : MutableAttributedString) (range : NSRange) (change : Attributes → Attributes) :
    MutableAttributedString :=
  s.mapIdx fun i character =>
    if range.location ≤ i ∧ i < range.location + range.length then
      { character with attributes := change character.attributes }
    else character

def addAttribute (s : MutableAttributedString) (name : AttributeKey) (value : AttributeValue) (range : NSRange) :
    MutableAttributedString :=
  changeAttributes s range fun attributes => Function.update attributes name (some value)

def removeAttribute (s : MutableAttributedString) (name : AttributeKey) (range : NSRange) : MutableAttributedString :=
  changeAttributes s range fun attributes => Function.update attributes name none

def Holds (test : Attributes → Prop) (s : MutableAttributedString) (i : Nat) : Prop :=
  ∃ character, s[i]? = some character ∧ test character.attributes

@[simp] theorem string_length (s : MutableAttributedString) : (string s).length = s.length := List.length_map ..

theorem change_attributes_get (s : MutableAttributedString) (range : NSRange) (change : Attributes → Attributes)
    (i : Nat) :
    (changeAttributes s range change)[i]? = s[i]?.map fun character =>
      if range.location ≤ i ∧ i < range.location + range.length then
        { character with attributes := change character.attributes }
      else character :=
  List.getElem?_mapIdx

@[simp] theorem change_attributes_string (s : MutableAttributedString) (range : NSRange)
    (change : Attributes → Attributes) : string (changeAttributes s range change) = string s := by
  refine List.ext_getElem? fun i => ?_
  rw [string, string, List.getElem?_map, List.getElem?_map, change_attributes_get, Option.map_map]
  refine congrArg (Option.map · _) (funext fun character => ?_)
  simp only [Function.comp_apply]
  split <;> rfl

@[simp] theorem change_attributes_length (s : MutableAttributedString) (range : NSRange)
    (change : Attributes → Attributes) : (changeAttributes s range change).length = s.length :=
  List.length_mapIdx

@[simp] theorem remove_string (s : MutableAttributedString) (name : AttributeKey) (range : NSRange) :
    string (removeAttribute s name range) = string s :=
  change_attributes_string ..

@[simp] theorem remove_length (s : MutableAttributedString) (name : AttributeKey) (range : NSRange) :
    (removeAttribute s name range).length = s.length :=
  change_attributes_length ..

@[simp] theorem add_string (s : MutableAttributedString) (name : AttributeKey) (value : AttributeValue)
    (range : NSRange) : string (addAttribute s name value range) = string s :=
  change_attributes_string ..

@[simp] theorem add_length (s : MutableAttributedString) (name : AttributeKey) (value : AttributeValue)
    (range : NSRange) : (addAttribute s name value range).length = s.length :=
  change_attributes_length ..

theorem holds_change (test : Attributes → Prop) (s : MutableAttributedString) (range : NSRange)
    (change : Attributes → Attributes) (i : Nat) :
    Holds test (changeAttributes s range change) i ↔
      if range.location ≤ i ∧ i < range.location + range.length then
        Holds (fun attributes => test (change attributes)) s i
      else Holds test s i := by
  unfold Holds
  rw [change_attributes_get]
  split
  · simp [Option.map_eq_some_iff]
  · simp

theorem holds_before_end (test : Attributes → Prop) (s : MutableAttributedString) (i : Nat) (holds : Holds test s i) :
    i < s.length := by
  obtain ⟨_, present, _⟩ := holds
  exact (List.getElem?_eq_some_iff.mp present).1

theorem holds_add (name : AttributeKey) (value : AttributeValue) (test : Attributes → Prop)
    (new : ∀ attributes, test (Function.update attributes name (some value))) (s : MutableAttributedString)
    (range : NSRange) (i : Nat) :
    Holds test (addAttribute s name value range) i ↔ Holds test s i ∨ i < s.length ∧ Covers [range] i := by
  have covered : Covers [range] i ↔ range.location ≤ i ∧ i < range.location + range.length := by simp [Covers]
  rw [addAttribute, holds_change, covered]
  split
  · rename_i inside
    constructor
    · exact fun holds => .inr ⟨holds_before_end _ s i holds, inside⟩
    · intro either
      have before : i < s.length := either.elim (holds_before_end test s i) And.left
      exact ⟨_, List.getElem?_eq_getElem before, new _⟩
  · rename_i outside
    exact ⟨.inl, fun either => either.resolve_right fun late => outside late.2⟩

theorem holds_add_other (name : AttributeKey) (value : AttributeValue) (test : Attributes → Prop)
    (unread : ∀ attributes, test (Function.update attributes name (some value)) ↔ test attributes)
    (s : MutableAttributedString) (range : NSRange) (i : Nat) :
    Holds test (addAttribute s name value range) i ↔ Holds test s i := by
  rw [addAttribute, holds_change]
  simp only [unread, ite_self]

theorem add_all_string {β : Type} (add : MutableAttributedString → β → MutableAttributedString)
    (kept : ∀ s result, string (add s result) = string s) (results : List β) (s : MutableAttributedString) :
    string (results.foldl add s) = string s := by
  induction results generalizing s with
  | nil => rfl
  | cons result results ih => rw [List.foldl_cons, ih, kept]

theorem holds_add_all {β : Type} (test : Attributes → Prop)
    (add : MutableAttributedString → β → MutableAttributedString) (range : β → NSRange)
    (kept : ∀ s result, string (add s result) = string s)
    (each : ∀ s result i, Holds test (add s result) i ↔ Holds test s i ∨ i < s.length ∧ Covers [range result] i)
    (results : List β) (s : MutableAttributedString) (i : Nat) :
    Holds test (results.foldl add s) i ↔ Holds test s i ∨ i < s.length ∧ Covers (results.map range) i := by
  induction results generalizing s with
  | nil => simp
  | cons result results ih =>
      have size : (add s result).length = s.length := by
        rw [← string_length, kept, string_length]
      rw [List.foldl_cons, ih, each, size, or_assoc, ← and_or_left, ← covers_append]
      exact Iff.rfl

theorem holds_remove (name : AttributeKey) (test : Attributes → Prop)
    (lost : ∀ attributes, ¬ test (Function.update attributes name none)) (s : MutableAttributedString)
    (range : NSRange) (i : Nat) :
    Holds test (removeAttribute s name range) i ↔
      ¬ (range.location ≤ i ∧ i < range.location + range.length) ∧ Holds test s i := by
  rw [removeAttribute, holds_change]
  split
  · rename_i inside
    constructor
    · rintro ⟨_, _, holds⟩
      exact absurd holds (lost _)
    · exact fun both => absurd inside both.1
  · rename_i outside
    exact ⟨fun holds => ⟨outside, holds⟩, And.right⟩

theorem holds_remove_other (name : AttributeKey) (test : Attributes → Prop)
    (unread : ∀ attributes, test (Function.update attributes name none) ↔ test attributes)
    (s : MutableAttributedString) (range : NSRange) (i : Nat) :
    Holds test (removeAttribute s name range) i ↔ Holds test s i := by
  rw [removeAttribute, holds_change]
  simp only [unread, ite_self]

def Carries (name : AttributeKey) (attributes : Attributes) : Prop := (attributes name).isSome

theorem carries_add (name other : AttributeKey) (value : AttributeValue) (s : MutableAttributedString)
    (range : NSRange) (i : Nat) :
    Holds (Carries name) (addAttribute s other value range) i ↔
      Holds (Carries name) s i ∨ name = other ∧ i < s.length ∧ Covers [range] i := by
  by_cases same : name = other
  · subst same
    rw [holds_add name value (Carries name) fun attributes => by simp [Carries]]
    simp only [true_and]
  · rw [holds_add_other other value (Carries name) fun attributes => by simp [Carries, same]]
    simp only [same, false_and, or_false]

theorem carries_remove (name other : AttributeKey) (s : MutableAttributedString) (range : NSRange) (i : Nat) :
    Holds (Carries name) (removeAttribute s other range) i ↔
      ¬ (name = other ∧ range.location ≤ i ∧ i < range.location + range.length) ∧ Holds (Carries name) s i := by
  by_cases same : name = other
  · subst same
    rw [holds_remove name (Carries name) fun attributes => by simp [Carries]]
    simp only [true_and]
  · rw [holds_remove_other other (Carries name) fun attributes => by simp [Carries, same]]
    simp only [same, false_and, not_false_eq_true, true_and]

section Replacing

variable (s new : MutableAttributedString) (range : NSRange) (str : List CodeUnit)

theorem replace_cases (replaced : replaceCharacters s range str = some new) :
    range.location + range.length ≤ s.length ∧
      new = s.take range.location ++ str.map (fun unit => ⟨unit, inheritedAttributes s range⟩) ++
        s.drop (range.location + range.length) := by
  unfold replaceCharacters at replaced
  split at replaced
  · exact ⟨by assumption, (Option.some.inj replaced).symm⟩
  · cases replaced

theorem replace_fits (replaced : replaceCharacters s range str = some new) :
    range.location + range.length ≤ (string s).length := by
  rw [string_length]
  exact (replace_cases s new range str replaced).1

theorem replace_string (replaced : replaceCharacters s range str = some new) :
    string new = (string s).take range.location ++ str ++ (string s).drop (range.location + range.length) := by
  obtain ⟨_, rfl⟩ := replace_cases s new range str replaced
  simp [string, List.map_take, List.map_drop, Function.comp_def]

theorem holds_replace_before (test : Attributes → Prop) (replaced : replaceCharacters s range str = some new) (i : Nat)
    (before : i < range.location) : Holds test new i ↔ Holds test s i := by
  obtain ⟨fits, rfl⟩ := replace_cases s new range str replaced
  have front : i < (s.take range.location).length := by
    rw [List.length_take]
    omega
  unfold Holds
  rw [List.append_assoc, List.getElem?_append_left front, List.getElem?_take_of_lt before]

theorem holds_replace_inserted (test : Attributes → Prop) (plain : ¬ test fun _ => none)
    (replaced : replaceCharacters s range str = some new) (i : Nat) (inside : range.location ≤ i)
    (before : i < range.location + str.length) : Holds test new i ↔ Holds test s (inheritedFrom range) := by
  obtain ⟨fits, rfl⟩ := replace_cases s new range str replaced
  have front : (s.take range.location).length = range.location := by
    rw [List.length_take]
    omega
  have present : i - range.location < str.length := by omega
  unfold Holds
  rw [List.append_assoc, List.getElem?_append_right (by omega), front,
    List.getElem?_append_left (by rw [List.length_map]; exact present), List.getElem?_map,
    List.getElem?_eq_getElem present]
  simp only [Option.map_some, Option.some.injEq, exists_eq_left', inheritedAttributes]
  cases s[inheritedFrom range]? with
  | none => simpa using plain
  | some character => simp

theorem holds_replace_behind (test : Attributes → Prop) (replaced : replaceCharacters s range str = some new) (i : Nat)
    (behind : range.location + str.length ≤ i) : Holds test new i ↔ Holds test s (i - str.length + range.length) := by
  obtain ⟨fits, rfl⟩ := replace_cases s new range str replaced
  have front : (s.take range.location ++ str.map fun unit =>
      AttributedUnit.mk unit (inheritedAttributes s range)).length = range.location + str.length := by
    simp only [List.length_append, List.length_take, List.length_map]
    omega
  unfold Holds
  rw [List.getElem?_append_right (by omega), front, List.getElem?_drop]
  have place : range.location + range.length + (i - (range.location + str.length)) =
      i - str.length + range.length := by
    omega
  rw [place]

end Replacing

end CultivationMotain.TextKit

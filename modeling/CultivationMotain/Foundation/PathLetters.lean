import CultivationMotain.Foundation.URL
import Mathlib.Data.String.Basic
import Mathlib.Data.String.Lemmas

set_option autoImplicit false

namespace CultivationMotain.Foundation

-- The characters of a path text that stand in its components.
def pathLetters (path : String) : List Char := path.toList.filter (· != '/')

def letterCount (components : List String) : Nat := (components.flatMap String.toList).length

theorem path_letters_append (first second : String) :
    pathLetters (first ++ second) = pathLetters first ++ pathLetters second := by
  rw [pathLetters, String.toList_append, List.filter_append]
  rfl

theorem split_on_slash (text : String) (start place : String.Pos.Raw) (parts : List String) :
    text.splitOnAux "/" start place 0 parts = text.splitAux (· == '/') start place parts := by
  fun_induction String.splitAux text (· == '/') start place parts with
  | case1 start place parts ended => rw [String.splitOnAux, if_pos ended]
  | case2 start place parts more _ matched _ ih =>
      have here : (place.get text == String.Pos.Raw.get "/" 0) = true := matched
      have whole : (String.Pos.Raw.next "/" 0).atEnd "/" = true := by decide
      have back : (String.Pos.Raw.next text place).unoffsetBy (String.Pos.Raw.next "/" 0) = place := by
        have slash : place.get text = '/' := beq_iff_eq.mp matched
        have one : (String.Pos.Raw.next "/" 0).byteIdx = 1 := by decide
        have size : '/'.utf8Size = 1 := by decide
        rw [String.Pos.Raw.ext_iff, String.Pos.Raw.next, slash]
        simp [one, size]
      rw [String.splitOnAux, if_neg more, if_pos here]
      dsimp only
      rw [if_pos whole, back]
      exact ih
  | case3 start place parts more _ other ih =>
      have there : ¬ (place.get text == String.Pos.Raw.get "/" 0) = true := other
      have back : place.unoffsetBy 0 = place := by simp
      rw [String.splitOnAux, if_neg more, if_neg there, back]
      exact ih

theorem split_letters (letters : List Char) :
    (letters.splitOnP (· == '/')).flatten = letters.filter (· != '/') := by
  induction letters with
  | nil => rfl
  | cons c letters ih =>
      rw [List.splitOnP_cons_eq_if_modifyHead]
      by_cases slash : (c == '/') = true
      · rw [if_pos slash, List.flatten_cons, ih, List.filter_cons_of_neg (by simpa using slash)]
        rfl
      · rw [if_neg slash, List.filter_cons_of_pos (by simpa using slash), ← ih]
        cases parts : letters.splitOnP (· == '/') with
        | nil => exact absurd parts (List.splitOnP_ne_nil _ _)
        | cons first rest => rfl

theorem count_nonempty (components : List String) :
    letterCount (components.filter (· ≠ "")) = letterCount components := by
  unfold letterCount
  induction components with
  | nil => rfl
  | cons component components ih =>
      by_cases empty : component = ""
      · rw [List.filter_cons_of_neg (by simpa using empty), ih, empty, List.flatMap_cons]
        rfl
      · rw [List.filter_cons_of_pos (by simpa using empty), List.flatMap_cons, List.flatMap_cons, List.length_append,
          List.length_append, ih]

theorem split_count (path : String) : letterCount (path.splitOn "/") = (pathLetters path).length := by
  have split : path.splitOn "/" = (path.toList.splitOnP (· == '/')).map String.ofList := by
    rw [← String.splitToList_of_valid]
    exact split_on_slash path 0 0 []
  have whole : ∀ parts : List (List Char), (parts.map String.ofList).flatMap String.toList = parts.flatten := by
    intro parts
    rw [List.flatMap_map, List.flatten_eq_flatMap]
    exact List.flatMap_congr fun part _ => String.toList_ofList
  rw [letterCount, split, whole, split_letters, pathLetters]

theorem file_url_count (currentDirectory : List String) (path : String) :
    letterCount (fileURL currentDirectory path).pathComponents =
      (if path.startsWith "/" then 0 else letterCount currentDirectory) + (pathLetters path).length := by
  have own := count_nonempty (path.splitOn "/")
  rw [split_count] at own
  unfold fileURL
  dsimp only
  rw [← own]
  by_cases absolute : path.startsWith "/" = true
  · rw [if_pos absolute, if_pos absolute, List.nil_append, Nat.zero_add]
  · rw [if_neg absolute, if_neg absolute]
    rw [letterCount, List.flatMap_append, List.length_append]
    rfl

theorem appending_letters (path component : String) :
    pathLetters (appendingPathComponent path component) = pathLetters path ++ pathLetters component := by
  unfold appendingPathComponent
  by_cases empty : path = ""
  · rw [if_pos empty, empty]
    rfl
  · rw [if_neg empty]
    by_cases slash : path.endsWith "/" = true
    · rw [if_pos slash, path_letters_append]
    · rw [if_neg slash, path_letters_append, path_letters_append, List.append_assoc]
      rfl

theorem escaped_letters (scalar : Char) (letter : (scalar != '/') = true) :
    1 ≤ (pathLetters (escaped scalar)).length := by
  have longer : ∀ first second, 1 ≤ (pathLetters first).length → 1 ≤ (pathLetters (first ++ second)).length := by
    intro first second some_
    rw [path_letters_append, List.length_append]
    exact Nat.le_add_right_of_le some_
  have either : ∀ (condition : Prop) [Decidable condition] (first second : String),
      1 ≤ (pathLetters first).length → 1 ≤ (pathLetters second).length →
        1 ≤ (pathLetters (if condition then first else second)).length := by
    intro condition _ first second one other
    by_cases holds : condition
    · rwa [if_pos holds]
    · rwa [if_neg holds]
  have itself : 1 ≤ (pathLetters scalar.toString).length := by
    rw [pathLetters, Char.toString, String.toList_singleton, List.filter_cons_of_pos (p := (· != '/')) letter]
    exact Nat.le_refl 1
  unfold escaped
  apply either _ _ _ (by decide)
  apply either _ _ _ (longer _ _ (by decide))
  apply either _ _ _ (by decide)
  apply either _ _ _ (by decide)
  apply either _ _ _ (by decide)
  apply either _ _ _ (by decide)
  apply either _ _ _ (by decide)
  exact either _ _ _ (longer _ _ (longer _ _ (by decide))) itself

theorem debug_letters (text : String) :
    (pathLetters text).length + 2 ≤ (pathLetters (debugDescription text)).length := by
  have each : ∀ scalars : List Char, (scalars.filter (· != '/')).length ≤
      (pathLetters (String.join (scalars.map escaped))).length := by
    intro scalars
    induction scalars with
    | nil => exact Nat.le_refl 0
    | cons scalar scalars ih =>
        rw [List.map_cons, String.join_cons, path_letters_append, List.length_append]
        by_cases letter : (scalar != '/') = true
        · have some_ := escaped_letters scalar letter
          rw [List.filter_cons_of_pos (p := (· != '/')) letter, List.length_cons]
          omega
        · rw [List.filter_cons_of_neg (p := (· != '/')) letter]
          omega
  have inside := each text.toList
  have quote : (pathLetters "\"").length = 1 := by decide
  unfold debugDescription
  rw [path_letters_append, path_letters_append, List.length_append, List.length_append, quote]
  change (pathLetters text).length ≤ _ at inside
  omega

-- The wrapper stays in the path.
theorem describing_letters (text : String) :
    (pathLetters text).length < (pathLetters (describing (some text))).length := by
  have quoted := debug_letters text
  unfold describing
  rw [path_letters_append, path_letters_append, List.length_append, List.length_append]
  omega

end CultivationMotain.Foundation

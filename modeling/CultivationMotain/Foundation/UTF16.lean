import CultivationMotain.Library.Regex
import Mathlib.Data.List.Basic
import Mathlib.Data.List.TakeWhile

set_option autoImplicit false

namespace CultivationMotain.Foundation

open Regex

abbrev CodeUnit := UInt16
abbrev CodePoint := Nat
abbrev NSRange := Span

def isHighSurrogate (unit : CodeUnit) : Bool := 0xD800 ≤ unit.toNat && unit.toNat < 0xDC00

def isLowSurrogate (unit : CodeUnit) : Bool := 0xDC00 ≤ unit.toNat && unit.toNat < 0xE000

def encodeScalar (c : Char) : List CodeUnit :=
  if c.toNat < 0x10000 then [UInt16.ofNat c.toNat]
  else [UInt16.ofNat (0xD800 + (c.toNat - 0x10000) / 0x400), UInt16.ofNat (0xDC00 + (c.toNat - 0x10000) % 0x400)]

def encode (text : List Char) : List CodeUnit := text.flatMap encodeScalar

-- An unpaired surrogate is read as a code point of its own.
def decode : List CodeUnit → List CodePoint
  | [] => []
  | [unit] => [unit.toNat]
  | high :: low :: rest =>
      if isHighSurrogate high && isLowSurrogate low then
        (0x10000 + (high.toNat - 0xD800) * 0x400 + (low.toNat - 0xDC00)) :: decode rest
      else high.toNat :: decode (low :: rest)

def utf16Width (c : CodePoint) : Nat := if c < 0x10000 then 1 else 2

theorem unit_width (unit : CodeUnit) : utf16Width unit.toNat = 1 :=
  if_pos unit.toNat_lt

theorem decode_weight (text : List CodeUnit) : weight utf16Width (decode text) = text.length := by
  fun_induction decode text with
  | case1 => rfl
  | case2 unit => simp [unit_width]
  | case3 high low rest paired ih =>
      have wide : ¬ 0x10000 + (high.toNat - 0xD800) * 0x400 + (low.toNat - 0xDC00) < 0x10000 := by omega
      rw [weight_cons, utf16Width, if_neg wide, ih]
      simp only [List.length_cons]
      omega
  | case4 high low rest unpaired ih =>
      rw [weight_cons, unit_width, ih]
      simp only [List.length_cons]
      omega

theorem decode_append (before rest : List CodeUnit) (unit : CodeUnit) (notHigh : isHighSurrogate unit = false)
    (notLow : isLowSurrogate unit = false) :
    decode (before ++ unit :: rest) = decode before ++ unit.toNat :: decode rest := by
  fun_induction decode before with
  | case1 =>
      cases rest with
      | nil => rfl
      | cons next rest => simp [decode, notHigh]
  | case2 last =>
      cases rest with
      | nil => simp [decode, notLow]
      | cons next rest => simp [decode, notLow, notHigh]
  | case3 high low before paired ih => simp [decode, paired, ih]
  | case4 high low before unpaired ih =>
      rw [List.cons_append, List.cons_append, decode, if_neg unpaired]
      simpa using ih

def utf16Count (text : List Char) : Nat := weight (fun c => utf16Width c.toNat) text

@[simp] theorem utf16_count_append (first second : List Char) :
    utf16Count (first ++ second) = utf16Count first + utf16Count second :=
  weight_append ..

theorem scalar_value (c : Char) : c.toNat < 0xD800 ∨ 0xDFFF < c.toNat ∧ c.toNat < 0x110000 := c.valid

theorem decode_plain (unit : CodeUnit) (rest : List CodeUnit) (notHigh : isHighSurrogate unit = false) :
    decode (unit :: rest) = unit.toNat :: decode rest := by
  cases rest with
  | nil => rfl
  | cons next rest => simp [decode, notHigh]

theorem surrogate_values (c : Char) (wide : ¬ c.toNat < 0x10000) :
    (UInt16.ofNat (0xD800 + (c.toNat - 0x10000) / 0x400)).toNat = 0xD800 + (c.toNat - 0x10000) / 0x400 ∧
      (UInt16.ofNat (0xDC00 + (c.toNat - 0x10000) % 0x400)).toNat = 0xDC00 + (c.toNat - 0x10000) % 0x400 := by
  have value := scalar_value c
  rw [UInt16.toNat_ofNat', UInt16.toNat_ofNat']
  omega

theorem decode_scalar (c : Char) (rest : List CodeUnit) : decode (encodeScalar c ++ rest) = c.toNat :: decode rest := by
  have value := scalar_value c
  unfold encodeScalar
  split
  · have unit : (UInt16.ofNat c.toNat).toNat = c.toNat := by
      rw [UInt16.toNat_ofNat']
      omega
    have notHigh : isHighSurrogate (UInt16.ofNat c.toNat) = false := by
      simp only [isHighSurrogate, unit, Bool.and_eq_false_iff, decide_eq_false_iff_not]
      omega
    rw [List.singleton_append, decode_plain _ _ notHigh, unit]
  · rename_i wide
    obtain ⟨high, low⟩ := surrogate_values c wide
    have paired : (isHighSurrogate (UInt16.ofNat (0xD800 + (c.toNat - 0x10000) / 0x400)) &&
        isLowSurrogate (UInt16.ofNat (0xDC00 + (c.toNat - 0x10000) % 0x400))) = true := by
      simp only [isHighSurrogate, isLowSurrogate, high, low, Bool.and_eq_true, decide_eq_true_eq]
      omega
    have scalar : 0x10000 + (0xD800 + (c.toNat - 0x10000) / 0x400 - 0xD800) * 0x400 +
        (0xDC00 + (c.toNat - 0x10000) % 0x400 - 0xDC00) = c.toNat := by
      omega
    simp only [List.cons_append, List.nil_append, decode, paired, if_true, high, low, scalar]

theorem encode_scalar_length (c : Char) : (encodeScalar c).length = utf16Width c.toNat := by
  unfold encodeScalar utf16Width
  split
  · rfl
  · rfl

theorem encode_length (text : List Char) : (encode text).length = utf16Count text := by
  induction text with
  | nil => rfl
  | cons c text ih =>
      have shape : encode (c :: text) = encodeScalar c ++ encode text := rfl
      have size : utf16Count (c :: text) = utf16Width c.toNat + utf16Count text := rfl
      rw [shape, size, List.length_append, ih, encode_scalar_length]

-- Nothing, or the first half of the surrogate pair that a text starts with.
def HalfOf (beyond : List Char) (half : List CodePoint) : Prop :=
  half = [] ∨ ∃ unit c rest, half = [unit] ∧ beyond = c :: rest ∧ 0xD800 ≤ unit ∧ unit < 0x10000 ∧
    utf16Width c.toNat = 2

theorem decode_take_scalar (c : Char) (n : Nat) (text : List Char) (inside : n < utf16Width c.toNat) :
    ∃ half, decode ((encodeScalar c).take n) = half ∧ half.length = n ∧ HalfOf (c :: text) half := by
  cases n with
  | zero => exact ⟨[], by rw [List.take_zero, decode], rfl, .inl rfl⟩
  | succ n =>
      have wide : ¬ c.toNat < 0x10000 := fun plain => by
        rw [utf16Width, if_pos plain] at inside
        omega
      have width : utf16Width c.toNat = 2 := if_neg wide
      obtain rfl : n = 0 := by omega
      have above := Nat.le_trans (Nat.le_add_right 0xD800 _) (Nat.le_of_eq (surrogate_values c wide).1.symm)
      rw [encodeScalar, if_neg wide]
      exact ⟨[_], rfl, rfl, .inr ⟨_, c, text, rfl, rfl, above, UInt16.toNat_lt _, width⟩⟩

-- The code points of the first units of a text: those of its characters there
-- and, inside a surrogate pair, the half that is left of it.
theorem decode_take_encode (text : List Char) (n : Nat) (bound : n ≤ utf16Count text) :
    ∃ kept beyond half, text = kept ++ beyond ∧ decode ((encode text).take n) = kept.map Char.toNat ++ half ∧
      utf16Count kept + half.length = n ∧ HalfOf beyond half := by
  induction text generalizing n with
  | nil =>
      obtain rfl := Nat.le_zero.mp bound
      exact ⟨[], [], [], rfl, rfl, rfl, .inl rfl⟩
  | cons c text ih =>
      have shape : encode (c :: text) = encodeScalar c ++ encode text := rfl
      have size : utf16Count (c :: text) = utf16Width c.toNat + utf16Count text := rfl
      by_cases inside : n < utf16Width c.toNat
      · obtain ⟨half, decoded, length, halved⟩ := decode_take_scalar c n text inside
        refine ⟨[], c :: text, half, rfl, ?_, by rw [length]; exact Nat.zero_add n, halved⟩
        rw [shape, List.take_append_of_le_length (by rw [encode_scalar_length]; omega), decoded]
        rfl
      · obtain ⟨kept, beyond, half, rfl, decoded, count, halved⟩ := ih (n - utf16Width c.toNat) (by omega)
        have longer : utf16Count (c :: kept) = utf16Width c.toNat + utf16Count kept := rfl
        refine ⟨c :: kept, beyond, half, rfl, ?_, by omega, halved⟩
        rw [shape, List.take_append, List.take_of_length_le (by rw [encode_scalar_length]; omega),
          encode_scalar_length, decode_scalar, decoded]
        rfl

def lineFeed : CodeUnit := 0x0A

def carriageReturn : CodeUnit := 0x0D

def isParagraphSeparator (unit : CodeUnit) : Bool :=
  unit == lineFeed || unit == carriageReturn || unit == 0x2029

theorem separator_not_surrogate (unit : CodeUnit) (separates : isParagraphSeparator unit = true) :
    isHighSurrogate unit = false ∧ isLowSurrogate unit = false := by
  simp only [isParagraphSeparator, Bool.or_eq_true, beq_iff_eq] at separates
  rcases separates with (rfl | rfl) | rfl
  · decide
  · decide
  · decide

-- From between a carriage return and its line feed the paragraph is the one
-- that the two end.
def paragraphStart (text : List CodeUnit) (location : Nat) : Nat :=
  let inside := if 0 < location ∧ text[location - 1]? = some carriageReturn ∧ text[location]? = some lineFeed then
      location - 1
    else location
  inside - ((text.take inside).reverse.takeWhile (!isParagraphSeparator ·)).length

def paragraphLength : List CodeUnit → Nat
  | [] => 0
  | unit :: rest =>
      if isParagraphSeparator unit then
        if unit = carriageReturn ∧ rest.head? = some lineFeed then 2 else 1
      else paragraphLength rest + 1

-- Looked for from the last unit of the range, or from the one after an empty range.
def paragraphEnd (text : List CodeUnit) (range : NSRange) : Nat :=
  let last := if range.length = 0 then range.location else range.location + range.length - 1
  last + paragraphLength (text.drop last)

def paragraphRange (text : List CodeUnit) (range : NSRange) : NSRange :=
  let start := paragraphStart text range.location
  ⟨start, paragraphEnd text range - start⟩

def ParagraphBoundary (before after : List CodeUnit) : Prop :=
  before = [] ∨ after = [] ∨ ∃ front last, before = front ++ [last] ∧ isParagraphSeparator last = true ∧
    ¬ (last = carriageReturn ∧ after.head? = some lineFeed)

theorem paragraph_start_le (text : List CodeUnit) (location : Nat) : paragraphStart text location ≤ location := by
  unfold paragraphStart
  dsimp only
  split
  · omega
  · omega

theorem boundary_prepend (front before after : List CodeUnit) (boundary : ParagraphBoundary before after)
    (nonempty : before ≠ [] ∨ after = []) : ParagraphBoundary (front ++ before) after := by
  rcases boundary with empty | done | ⟨contents, last, rfl, separates, whole⟩
  · exact .inr (.inl (nonempty.resolve_left fun present => present empty))
  · exact .inr (.inl done)
  · exact .inr (.inr ⟨front ++ contents, last, (List.append_assoc ..).symm, separates, whole⟩)

theorem taken_or_dropped (text : List CodeUnit) (count : Nat) (some_ : text ≠ [] → 1 ≤ count) :
    text.take count ≠ [] ∨ text.drop count = [] := by
  by_cases empty : text = []
  · exact .inr (by simp [empty])
  · refine .inl fun absent => ?_
    have positive := some_ empty
    rcases List.take_eq_nil_iff.mp absent with zero | nil
    · omega
    · exact empty nil

theorem paragraph_length_cases (text : List CodeUnit) :
    paragraphLength text ≤ text.length ∧ (text ≠ [] → 1 ≤ paragraphLength text) ∧
      ParagraphBoundary (text.take (paragraphLength text)) (text.drop (paragraphLength text)) := by
  fun_induction paragraphLength text with
  | case1 => exact ⟨Nat.le_refl _, fun absent => absurd rfl absent, .inl rfl⟩
  | case2 unit rest separates ends =>
      obtain ⟨rfl, next⟩ := ends
      obtain ⟨tail, rfl⟩ := List.head?_eq_some_iff.mp next
      refine ⟨by simp, fun _ => by omega, .inr (.inr ⟨[carriageReturn], lineFeed, rfl, rfl, ?_⟩)⟩
      exact fun both => absurd both.1 (by decide)
  | case3 unit rest separates alone =>
      exact ⟨by simp, fun _ => Nat.le_refl _, .inr (.inr ⟨[], unit, rfl, separates, alone⟩)⟩
  | case4 unit rest contents ih =>
      obtain ⟨bound, some_, boundary⟩ := ih
      refine ⟨by simpa using bound, fun _ => Nat.le_add_left .., ?_⟩
      rw [List.take_succ_cons, List.drop_succ_cons]
      exact boundary_prepend [unit] _ _ boundary (taken_or_dropped rest _ some_)

theorem paragraph_length_zero (text : List CodeUnit) : paragraphLength text = 0 ↔ text = [] := by
  constructor
  · intro zero
    by_contra present
    have positive := (paragraph_length_cases text).2.1 present
    omega
  · rintro rfl
    rfl

theorem paragraph_length_one (unit : CodeUnit) (rest : List CodeUnit) :
    paragraphLength (unit :: rest) = 1 ↔
      rest = [] ∨ isParagraphSeparator unit = true ∧ ¬ (unit = carriageReturn ∧ rest.head? = some lineFeed) := by
  unfold paragraphLength
  split
  · rename_i separates
    split
    · rename_i together
      refine iff_of_false (by omega) fun either => ?_
      rcases either with done | alone
      · rw [done] at together
        cases together.2
      · exact alone.2 together
    · rename_i alone
      exact iff_of_true rfl (.inr ⟨separates, alone⟩)
  · rename_i contents
    have behind := paragraph_length_zero rest
    rw [Nat.add_eq_right, behind]
    exact ⟨.inl, fun either => either.resolve_right fun alone => contents alone.1⟩

theorem paragraph_end_cases (text : List CodeUnit) (range : NSRange)
    (inside : range.location + range.length ≤ text.length) :
    range.location + range.length ≤ paragraphEnd text range ∧ paragraphEnd text range ≤ text.length ∧
      ParagraphBoundary (text.take (paragraphEnd text range)) (text.drop (paragraphEnd text range)) := by
  obtain ⟨last, start, before⟩ : ∃ last, last = (if range.length = 0 then range.location
      else range.location + range.length - 1) ∧ last ≤ text.length :=
    ⟨_, rfl, by split <;> omega⟩
  obtain ⟨bound, some_, boundary⟩ := paragraph_length_cases (text.drop last)
  rw [List.length_drop] at bound
  have end_ : paragraphEnd text range = last + paragraphLength (text.drop last) := by
    rw [start]
    rfl
  rw [end_]
  refine ⟨?_, by omega, ?_⟩
  · by_cases empty : range.length = 0
    · rw [if_pos empty] at start
      omega
    · rw [if_neg empty] at start
      have present : text.drop last ≠ [] := fun nil => by
        have short := List.drop_eq_nil_iff.mp nil
        omega
      have positive := some_ present
      omega
  · rw [List.take_add, ← List.drop_drop]
    exact boundary_prepend _ _ _ boundary (taken_or_dropped (text.drop last) _ some_)

theorem last_separator (text : List CodeUnit) :
    ∃ earlier contents, text = earlier ++ contents ∧
      contents.length = (text.reverse.takeWhile (!isParagraphSeparator ·)).length ∧
      (∀ unit ∈ contents, isParagraphSeparator unit = false) ∧
      (earlier = [] ∨ ∃ front last, earlier = front ++ [last] ∧ isParagraphSeparator last = true) := by
  have pieces : text.reverse.takeWhile (!isParagraphSeparator ·) ++
      text.reverse.dropWhile (!isParagraphSeparator ·) = text.reverse := List.takeWhile_append_dropWhile
  have stop := List.head?_dropWhile_not (!isParagraphSeparator ·) text.reverse
  refine ⟨(text.reverse.dropWhile (!isParagraphSeparator ·)).reverse,
    (text.reverse.takeWhile (!isParagraphSeparator ·)).reverse, ?_, List.length_reverse, fun unit member => ?_, ?_⟩
  · rw [← List.reverse_append, pieces, List.reverse_reverse]
  · simpa using List.mem_takeWhile_imp (List.mem_reverse.mp member)
  · cases earlier : text.reverse.dropWhile (!isParagraphSeparator ·) with
    | nil => exact .inl rfl
    | cons last front =>
        rw [earlier] at stop
        exact .inr ⟨front.reverse, last, List.reverse_cons, by simpa using stop⟩

theorem paragraph_start_cases (text : List CodeUnit) (location : Nat) (inside : location ≤ text.length) :
    text.take (paragraphStart text location) = [] ∨
      ∃ front last, text.take (paragraphStart text location) = front ++ [last] ∧ isParagraphSeparator last = true ∧
        ¬ (last = carriageReturn ∧ (text.drop (paragraphStart text location)).head? = some lineFeed) := by
  obtain ⟨from_, adjusted, bound, unsplit⟩ : ∃ from_, from_ = (if 0 < location ∧
      text[location - 1]? = some carriageReturn ∧ text[location]? = some lineFeed then location - 1 else location) ∧
      from_ ≤ text.length ∧ ¬ (0 < from_ ∧ text[from_ - 1]? = some carriageReturn ∧ text[from_]? = some lineFeed) := by
    refine ⟨_, rfl, ?_, ?_⟩
    · split <;> omega
    · split
      · rename_i split_
        rintro ⟨_, _, feed⟩
        rw [split_.2.1] at feed
        exact absurd (Option.some.inj feed) (by decide)
      · assumption
  obtain ⟨earlier, contents, whole, length, plain, ends⟩ := last_separator (text.take from_)
  have parts : text = earlier ++ (contents ++ text.drop from_) := by
    rw [← List.append_assoc, ← whole, List.take_append_drop]
  have size : from_ = earlier.length + contents.length := by
    have lengths := congrArg List.length whole
    simp only [List.length_take, List.length_append] at lengths
    omega
  have at_ : paragraphStart text location = earlier.length := by
    have start : paragraphStart text location =
        from_ - ((text.take from_).reverse.takeWhile (!isParagraphSeparator ·)).length := by
      rw [adjusted]
      rfl
    omega
  have take_ : text.take earlier.length = earlier := (congrArg (List.take _) parts).trans List.take_left
  have drop_ : text.drop earlier.length = contents ++ text.drop from_ :=
    (congrArg (List.drop _) parts).trans List.drop_left
  rw [at_, take_, drop_]
  refine ends.imp_right fun ⟨front, last, shape, separates⟩ => ⟨front, last, shape, separates, ?_⟩
  rintro ⟨rfl, next⟩
  by_cases empty : contents = []
  · -- No contents before the place: it is not inside a line ending.
    subst empty
    rw [List.length_nil, Nat.add_zero] at size
    rw [shape, List.length_append, List.length_singleton] at size
    refine unsplit ⟨by omega, ?_, ?_⟩
    · rw [parts, size, shape]
      simp
    · simpa [List.head?_drop] using next
  · rw [List.head?_append_of_ne_nil _ empty] at next
    have feed : lineFeed ∈ contents := List.mem_of_mem_head? (Option.mem_def.mpr next)
    exact absurd (plain lineFeed feed) (by decide)

theorem paragraph_start_boundary (text : List CodeUnit) (location : Nat) (inside : location ≤ text.length) :
    ParagraphBoundary (text.take (paragraphStart text location)) (text.drop (paragraphStart text location)) :=
  (paragraph_start_cases text location inside).imp_right .inr

end CultivationMotain.Foundation

import Mathlib.Data.List.Basic
import Mathlib.Data.List.TakeWhile

set_option autoImplicit false

namespace Regex

universe u

variable {α : Type u}

-- Patterns over any alphabet, for a matcher that backtracks. Loops are over a
-- single class; after is a lookbehind for a fixed text.
inductive Pattern (α : Type u) where
  | one (p : α → Bool)
  | greedy (p : α → Bool)
  | reluctant (p : α → Bool)
  | seq (first second : Pattern α)
  | alt (first second : Pattern α)
  | atEnd
  | after (literal : List α)

def Pattern.plus (p : α → Bool) : Pattern α := .seq (.one p) (.greedy p)

def Pattern.literal [BEq α] : List α → Pattern α
  | [] => .greedy fun _ => false
  | c :: rest => .seq (.one (· == c)) (Pattern.literal rest)

section Matching

variable [BEq α]

-- The lengths of all ways to match at the start of rest, best first. before is
-- the text already passed, last element first.
def lengths : Pattern α → List α → List α → List Nat
  | .one p, _, rest =>
      match rest with
      | [] => []
      | c :: _ => if p c then [1] else []
  | .greedy p, _, rest => (List.range ((rest.takeWhile p).length + 1)).reverse
  | .reluctant p, _, rest => List.range ((rest.takeWhile p).length + 1)
  | .seq first second, before, rest =>
      (lengths first before rest).flatMap fun n =>
        (lengths second ((rest.take n).reverse ++ before) (rest.drop n)).map (n + ·)
  | .alt first second, before, rest => lengths first before rest ++ lengths second before rest
  | .atEnd, _, rest => if rest.isEmpty then [0] else []
  | .after literal, before, _ => if literal.reverse.isPrefixOf before then [0] else []

def first (pattern : Pattern α) (before rest : List α) : Option Nat := (lengths pattern before rest).head?

structure Span where
  location : Nat
  length : Nat
deriving DecidableEq, Repr

variable (width : α → Nat)

def weight : List α → Nat
  | [] => 0
  | c :: text => width c + weight text

-- The successive matches from location on, in a text whose elements take
-- width places each. skip elements still belong to the last match; a search
-- after an empty match goes on one element later.
def findFrom (pattern : Pattern α) : Nat → Nat → List α → List α → List Span
  | location, skip, before, [] =>
      match skip, first pattern before [] with
      | 0, some _ => [⟨location, 0⟩]
      | _, _ => []
  | location, skip + 1, before, c :: rest => findFrom pattern (location + width c) skip (c :: before) rest
  | location, 0, before, c :: rest =>
      match first pattern before (c :: rest) with
      | none => findFrom pattern (location + width c) 0 (c :: before) rest
      | some n =>
          ⟨location, weight width ((c :: rest).take n)⟩ ::
            findFrom pattern (location + width c) (n - 1) (c :: before) rest

-- The text with every match replaced; between matches it stays as it is.
def replaceFrom (pattern : Pattern α) (replacement : List α → List α) : Nat → List α → List α → List α
  | skip, before, [] =>
      match skip, first pattern before [] with
      | 0, some _ => replacement []
      | _, _ => []
  | skip + 1, before, c :: rest => replaceFrom pattern replacement skip (c :: before) rest
  | 0, before, c :: rest =>
      match first pattern before (c :: rest) with
      | none => c :: replaceFrom pattern replacement 0 (c :: before) rest
      | some 0 => replacement [] ++ c :: replaceFrom pattern replacement 0 (c :: before) rest
      | some (n + 1) =>
          replacement ((c :: rest).take (n + 1)) ++ replaceFrom pattern replacement n (c :: before) rest

def replaceAll (pattern : Pattern α) (replacement : List α → List α) (text : List α) : List α :=
  replaceFrom pattern replacement 0 [] text

def findAll (pattern : Pattern α) (text : List α) : List Span := findFrom width pattern 0 0 [] text

end Matching

def Span.shift (span : Span) (offset : Nat) : Span := ⟨span.location + offset, span.length⟩

def Covers (spans : List Span) (place : Nat) : Prop :=
  ∃ span ∈ spans, span.location ≤ place ∧ place < span.location + span.length

@[simp] theorem covers_nil (place : Nat) : ¬ Covers [] place := by
  rintro ⟨_, member, _⟩
  cases member

theorem covers_append (first second : List Span) (place : Nat) :
    Covers (first ++ second) place ↔ Covers first place ∨ Covers second place := by
  simp only [Covers, List.mem_append, or_and_right, exists_or]

theorem covers_shift (spans : List Span) (offset place : Nat) :
    Covers (spans.map fun span => span.shift offset) place ↔ offset ≤ place ∧ Covers spans (place - offset) := by
  constructor
  · rintro ⟨_, member, start, stop⟩
    obtain ⟨span, inside, rfl⟩ := List.mem_map.mp member
    simp only [Span.shift] at start stop
    exact ⟨by omega, span, inside, by omega, by omega⟩
  · rintro ⟨beyond, span, member, start, stop⟩
    refine ⟨span.shift offset, List.mem_map.mpr ⟨span, member, rfl⟩, ?_, ?_⟩
    · simp only [Span.shift]
      omega
    · simp only [Span.shift]
      omega

section Weights

variable (width : α → Nat)

@[simp] theorem weight_nil : weight width [] = 0 := rfl

@[simp] theorem weight_cons (c : α) (text : List α) : weight width (c :: text) = width c + weight width text := rfl

@[simp] theorem weight_append (first second : List α) :
    weight width (first ++ second) = weight width first + weight width second := by
  induction first with
  | nil => exact (Nat.zero_add _).symm
  | cons c first ih => rw [List.cons_append, weight_cons, weight_cons, ih, Nat.add_assoc]

theorem weight_map {β : Type u} (image : β → α) (text : List β) :
    weight width (text.map image) = weight (fun c => width (image c)) text := by
  induction text with
  | nil => rfl
  | cons c text ih => rw [List.map_cons, weight_cons, weight_cons, ih]

end Weights

section Bounds

variable [BEq α] (width : α → Nat)

theorem lengths_le (pattern : Pattern α) (before rest : List α) (n : Nat) (found : n ∈ lengths pattern before rest) :
    n ≤ rest.length := by
  induction pattern generalizing before rest n with
  | one p =>
      cases rest with
      | nil => cases found
      | cons c rest =>
          simp only [lengths] at found
          split at found
          · have one : n = 1 := by simpa using found
            simp [one]
          · cases found
  | greedy p =>
      have bound : n < (rest.takeWhile p).length + 1 := by simpa [lengths] using found
      exact Nat.le_trans (Nat.le_of_lt_succ bound) (List.takeWhile_prefix p).length_le
  | reluctant p =>
      have bound : n < (rest.takeWhile p).length + 1 := by simpa [lengths] using found
      exact Nat.le_trans (Nat.le_of_lt_succ bound) (List.takeWhile_prefix p).length_le
  | seq first second firstIH secondIH =>
      obtain ⟨k, atFirst, tail⟩ := List.mem_flatMap.mp found
      obtain ⟨m, atSecond, rfl⟩ := List.mem_map.mp tail
      have firstBound := firstIH before rest k atFirst
      have secondBound := secondIH _ _ m atSecond
      rw [List.length_drop] at secondBound
      omega
  | alt first second firstIH secondIH =>
      rcases List.mem_append.mp found with atFirst | atSecond
      · exact firstIH before rest n atFirst
      · exact secondIH before rest n atSecond
  | atEnd =>
      simp only [lengths] at found
      split at found
      · simp_all
      · cases found
  | after literal =>
      simp only [lengths] at found
      split at found
      · simp_all
      · cases found

theorem first_le (pattern : Pattern α) (before rest : List α) (n : Nat)
    (found : first pattern before rest = some n) : n ≤ rest.length :=
  lengths_le pattern before rest n (List.mem_of_mem_head? (Option.mem_def.mpr found))

theorem find_within (pattern : Pattern α) (location skip : Nat) (before text : List α) (span : Span)
    (member : span ∈ findFrom width pattern location skip before text) :
    location ≤ span.location ∧ span.location + span.length ≤ location + weight width text := by
  induction text generalizing location skip before with
  | nil =>
      unfold findFrom at member
      split at member
      · rw [List.mem_singleton.mp member]
        simp
      · cases member
  | cons c rest ih =>
      cases skip with
      | succ skip =>
          obtain ⟨start, stop⟩ := ih (location + width c) skip (c :: before) member
          rw [weight_cons]
          omega
      | zero =>
          simp only [findFrom] at member
          split at member
          · obtain ⟨start, stop⟩ := ih (location + width c) 0 (c :: before) member
            rw [weight_cons]
            omega
          · rename_i n found
            rcases List.mem_cons.mp member with rfl | later
            · have whole : weight width ((c :: rest).take n) + weight width ((c :: rest).drop n) =
                  weight width (c :: rest) := by
                rw [← weight_append, List.take_append_drop]
              simp only
              omega
            · obtain ⟨start, stop⟩ := ih (location + width c) (n - 1) (c :: before) later
              rw [weight_cons]
              omega

theorem find_shift (pattern : Pattern α) (location offset skip : Nat) (before text : List α) :
    findFrom width pattern (location + offset) skip before text =
      (findFrom width pattern location skip before text).map fun span => span.shift offset := by
  induction text generalizing location skip before with
  | nil =>
      unfold findFrom
      split
      · rfl
      · rfl
  | cons c rest ih =>
      cases skip with
      | succ skip =>
          simp only [findFrom]
          rw [Nat.add_right_comm, ih]
      | zero =>
          simp only [findFrom]
          rw [Nat.add_right_comm]
          split
          · exact ih ..
          · rw [ih, List.map_cons]
            rfl

theorem covered_within (pattern : Pattern α) (text : List α) (place : Nat)
    (covered : Covers (findAll width pattern text) place) : place < weight width text := by
  obtain ⟨span, member, _, stop⟩ := covered
  obtain ⟨_, bound⟩ := find_within width pattern 0 0 [] text span member
  omega

end Bounds

section Lookahead

def Forward : Pattern α → Prop
  | .one _ | .greedy _ | .reluctant _ | .atEnd => True
  | .seq first second | .alt first second => Forward first ∧ Forward second
  | .after _ => False

variable [BEq α] (width : α → Nat)

theorem lengths_before (pattern : Pattern α) (forward : Forward pattern) (before other text : List α) :
    lengths pattern before text = lengths pattern other text := by
  induction pattern generalizing before other text with
  | one p => rfl
  | greedy p => rfl
  | reluctant p => rfl
  | seq first second firstIH secondIH =>
      simp only [lengths]
      rw [firstIH forward.1 before other text]
      refine List.flatMap_congr fun n _ => ?_
      rw [secondIH forward.2 _ ((text.take n).reverse ++ other) (text.drop n)]
  | alt first second firstIH secondIH =>
      simp only [lengths]
      rw [firstIH forward.1 before other text, secondIH forward.2 before other text]
  | atEnd => rfl
  | after literal => exact forward.elim

theorem find_before (pattern : Pattern α) (forward : Forward pattern) (location skip : Nat)
    (before other text : List α) :
    findFrom width pattern location skip before text = findFrom width pattern location skip other text := by
  induction text generalizing location skip before other with
  | nil =>
      unfold findFrom first
      rw [lengths_before pattern forward before other]
  | cons c rest ih =>
      cases skip with
      | succ skip =>
          simp only [findFrom]
          exact ih ..
      | zero =>
          simp only [findFrom, first]
          rw [lengths_before pattern forward before other]
          split
          · exact ih ..
          · rw [ih]

theorem replace_before (pattern : Pattern α) (forward : Forward pattern) (replacement : List α → List α) (skip : Nat)
    (before other text : List α) :
    replaceFrom pattern replacement skip before text = replaceFrom pattern replacement skip other text := by
  induction text generalizing skip before other with
  | nil =>
      unfold replaceFrom first
      rw [lengths_before pattern forward before other]
  | cons c rest ih =>
      cases skip with
      | succ skip =>
          simp only [replaceFrom]
          exact ih ..
      | zero =>
          simp only [replaceFrom, first]
          rw [lengths_before pattern forward before other]
          split
          · rw [ih 0 (c :: before) (c :: other)]
          · rw [ih 0 (c :: before) (c :: other)]
          · rename_i n _
            rw [ih n (c :: before) (c :: other)]

theorem find_skip (pattern : Pattern α) (location : Nat) (before matched rest : List α) :
    findFrom width pattern location matched.length before (matched ++ rest) =
      findFrom width pattern (location + weight width matched) 0 (matched.reverse ++ before) rest := by
  induction matched generalizing location before with
  | nil => rfl
  | cons c matched ih =>
      simp only [List.length_cons, List.cons_append, findFrom, weight_cons, List.reverse_cons]
      rw [ih, Nat.add_assoc, List.append_assoc, List.singleton_append]

theorem replace_skip (pattern : Pattern α) (replacement : List α → List α) (before matched rest : List α) :
    replaceFrom pattern replacement matched.length before (matched ++ rest) =
      replaceFrom pattern replacement 0 (matched.reverse ++ before) rest := by
  induction matched generalizing before with
  | nil => rfl
  | cons c matched ih =>
      simp only [List.length_cons, List.cons_append, replaceFrom, List.reverse_cons]
      rw [ih, List.append_assoc, List.singleton_append]

theorem find_match (pattern : Pattern α) (location : Nat) (before matched rest : List α) (nonempty : matched ≠ [])
    (found : first pattern before (matched ++ rest) = some matched.length) :
    findFrom width pattern location 0 before (matched ++ rest) =
      ⟨location, weight width matched⟩ ::
        findFrom width pattern (location + weight width matched) 0 (matched.reverse ++ before) rest := by
  obtain ⟨c, others, rfl⟩ := List.exists_cons_of_ne_nil nonempty
  rw [← find_skip]
  simp only [List.cons_append] at found ⊢
  have taken : (c :: (others ++ rest)).take (others.length + 1) = c :: others := by simp
  simp only [findFrom, found, List.length_cons, taken, Nat.add_sub_cancel]

theorem replace_match (pattern : Pattern α) (replacement : List α → List α) (before matched rest : List α)
    (nonempty : matched ≠ []) (found : first pattern before (matched ++ rest) = some matched.length) :
    replaceFrom pattern replacement 0 before (matched ++ rest) =
      replacement matched ++ replaceFrom pattern replacement 0 (matched.reverse ++ before) rest := by
  obtain ⟨c, others, rfl⟩ := List.exists_cons_of_ne_nil nonempty
  rw [← replace_skip]
  simp only [List.cons_append, List.length_cons] at found ⊢
  have taken : (c :: (others ++ rest)).take (others.length + 1) = c :: others := by simp
  simp only [replaceFrom, found, taken]

theorem lengths_until (p : α → Bool) (before rest : List α) :
    lengths (.seq (.plus p) (.one fun c => !p c)) before rest =
      match rest.takeWhile p, rest.dropWhile p with
      | first :: body, _ :: _ => [(first :: body).length + 1]
      | _, _ => [] := by
  cases rest with
  | nil => rfl
  | cons c tail =>
      by_cases taken : p c = true
      · obtain ⟨body, loop⟩ : ∃ body, tail.takeWhile p = body := ⟨_, rfl⟩
        obtain ⟨after, behind⟩ : ∃ after, tail.dropWhile p = after := ⟨_, rfl⟩
        have whole : tail = body ++ after := by rw [← loop, ← behind, List.takeWhile_append_dropWhile]
        have inside : ∀ d ∈ body, p d = true := fun d member => List.mem_takeWhile_imp (loop ▸ member)
        have stop := List.head?_dropWhile_not p tail
        -- Behind any shorter loop the next character is still one of the loop.
        have shorter : ∀ j, j < body.length → ∃ d more, tail.drop j = d :: more ∧ p d = true := by
          intro j bound
          obtain ⟨d, more, cut⟩ : ∃ d more, body.drop j = d :: more :=
            List.exists_cons_of_ne_nil fun empty => Nat.not_le_of_lt bound (List.drop_eq_nil_iff.mp empty)
          refine ⟨d, more ++ after, ?_, inside d (List.mem_of_mem_drop (cut ▸ List.mem_cons_self))⟩
          rw [whole, List.drop_append_of_le_length (Nat.le_of_lt bound), cut]
          rfl
        have longest : tail.drop body.length = after := by rw [whole, List.drop_left]
        rw [behind] at stop
        simp only [Pattern.plus, lengths, taken, if_true, List.takeWhile_cons_of_pos, List.dropWhile_cons_of_pos,
          List.flatMap_cons, List.flatMap_nil, List.append_nil, List.drop_succ_cons, List.drop_zero, loop, behind,
          List.range_succ, List.reverse_append, List.reverse_singleton, List.singleton_append, List.map_cons]
        have others : ∀ n ∈ (List.range body.length).reverse.map (1 + ·),
            (match (c :: tail).drop n with
              | [] => []
              | d :: _ => if (!p d) = true then [1] else []).map (n + ·) = [] := by
          intro n member
          obtain ⟨j, place, rfl⟩ := List.mem_map.mp member
          obtain ⟨d, more, cut, again⟩ := shorter j (List.mem_range.mp (List.mem_reverse.mp place))
          rw [Nat.add_comm, List.drop_succ_cons, cut]
          simp [again]
        rw [List.flatMap_eq_nil_iff.mpr others, List.append_nil, Nat.add_comm 1, List.drop_succ_cons, longest]
        cases after with
        | nil => rfl
        | cons close after =>
            have closes : p close = false := stop
            simp [closes]
      · simp [Pattern.plus, lengths, taken]

theorem first_reluctant (pattern : Pattern α) (before rest : List α) :
    first (.seq (.reluctant fun _ => true) pattern) before rest =
      (first pattern before rest).or (match rest with
        | [] => none
        | c :: tail => (first (.seq (.reluctant fun _ => true) pattern) (c :: before) tail).map (1 + ·)) := by
  cases rest with
  | nil => simp [first, lengths]
  | cons c tail =>
      have taken : ∀ text : List α, text.takeWhile (fun _ => true) = text := fun text =>
        List.takeWhile_eq_self_iff.mpr fun _ _ => rfl
      simp only [first, lengths, taken, List.length_cons]
      rw [List.range_succ_eq_map, List.flatMap_cons, List.head?_append]
      refine congrArg₂ Option.or ?_ ?_
      · simp
      · rw [List.flatMap_map, ← List.head?_map, List.map_flatMap]
        refine congrArg List.head? (congrArg (List.flatMap · _) (funext fun n => ?_))
        simp only [List.map_map, List.take_succ_cons, List.reverse_cons, List.append_assoc, List.singleton_append,
          List.drop_succ_cons]
        exact List.map_congr_left fun m _ => by simp only [Function.comp_apply]; omega

end Lookahead

section Lookbehind

variable [BEq α]

theorem first_after (literal : List α) (pattern : Pattern α) (before rest : List α) :
    first (.seq (.after literal) pattern) before rest =
      if literal.reverse.isPrefixOf before then first pattern before rest else none := by
  by_cases behind : literal.reverse.isPrefixOf before
  · simp [first, lengths, behind]
  · simp [first, lengths, behind]

theorem first_plus (p : α → Bool) (before rest : List α) :
    first (Pattern.plus p) before rest =
      if rest.takeWhile p = [] then none else some (rest.takeWhile p).length := by
  cases rest with
  | nil => simp [first, Pattern.plus, lengths]
  | cons c rest =>
      by_cases taken : p c
      · simp [first, Pattern.plus, lengths, taken, List.range_succ, Nat.add_comm]
      · simp [first, Pattern.plus, lengths, taken]

end Lookbehind

section Locality

variable (separator : α → Bool)

-- No class of the pattern takes a separator, and it looks at nothing but the
-- text that it takes.
def Within : Pattern α → Prop
  | .one p | .greedy p | .reluctant p => ∀ c, separator c = true → p c = false
  | .seq first second | .alt first second => Within first ∧ Within second
  | .atEnd | .after _ => False

theorem within_forward (pattern : Pattern α) (within : Within separator pattern) : Forward pattern := by
  induction pattern with
  | one p => trivial
  | greedy p => trivial
  | reluctant p => trivial
  | seq first second firstIH secondIH => exact ⟨firstIH within.1, secondIH within.2⟩
  | alt first second firstIH secondIH => exact ⟨firstIH within.1, secondIH within.2⟩
  | atEnd => trivial
  | after literal => exact within.elim

theorem take_while_stops (p : α → Bool) (text rest : List α) (s : α) (stops : p s = false) :
    (text ++ s :: rest).takeWhile p = text.takeWhile p := by
  induction text with
  | nil => simp [stops]
  | cons c text ih =>
      simp only [List.cons_append, List.takeWhile_cons]
      split
      · rw [ih]
      · rfl

variable [BEq α]

theorem literal_within [LawfulBEq α] (text : List α) (plain : ∀ c ∈ text, separator c = false) :
    Within separator (Pattern.literal text) := by
  induction text with
  | nil => exact fun _ _ => rfl
  | cons c rest ih =>
      refine ⟨fun other separates => beq_eq_false_iff_ne.mpr fun same => ?_,
        ih fun other member => plain other (List.mem_cons_of_mem c member)⟩
      rw [same, plain c List.mem_cons_self] at separates
      cases separates

theorem lengths_local (pattern : Pattern α) (within : Within separator pattern) (before other text rest : List α)
    (s : α) (separates : separator s = true) :
    lengths pattern before (text ++ s :: rest) = lengths pattern other text := by
  induction pattern generalizing before other text with
  | one p =>
      cases text with
      | nil => simp [lengths, within s separates]
      | cons c text => rfl
  | greedy p =>
      simp only [lengths]
      rw [take_while_stops p text rest s (within s separates)]
  | reluctant p =>
      simp only [lengths]
      rw [take_while_stops p text rest s (within s separates)]
  | seq first second firstIH secondIH =>
      simp only [lengths]
      rw [firstIH within.1 before other text]
      refine List.flatMap_congr fun n found => ?_
      have bound := lengths_le first other text n found
      rw [List.drop_append_of_le_length bound, secondIH within.2 _ ((text.take n).reverse ++ other) (text.drop n)]
  | alt first second firstIH secondIH =>
      simp only [lengths]
      rw [firstIH within.1 before other text, secondIH within.2 before other text]
  | atEnd => exact within.elim
  | after literal => exact within.elim

variable (width : α → Nat)

theorem find_append (pattern : Pattern α) (within : Within separator pattern) (location skip : Nat)
    (before other text rest : List α) (s : α) (separates : separator s = true) (ahead : skip ≤ text.length) :
    findFrom width pattern location skip before (text ++ s :: rest) =
      findFrom width pattern location skip before text ++
        findFrom width pattern (location + (weight width text + width s)) 0 other rest := by
  induction text generalizing location skip before with
  | nil =>
      obtain rfl : skip = 0 := Nat.le_zero.mp ahead
      have same : first pattern before (s :: rest) = first pattern before [] :=
        congrArg List.head? (lengths_local separator pattern within before before [] rest s separates)
      simp only [List.nil_append, weight_nil, Nat.zero_add, findFrom]
      rw [same]
      cases found : first pattern before [] with
      | none =>
          simp only [List.nil_append]
          exact find_before width pattern (within_forward separator pattern within) ..
      | some n =>
          obtain rfl : n = 0 := Nat.le_zero.mp (first_le pattern before [] n found)
          simp only [List.take_zero, weight_nil, List.cons_append, List.nil_append]
          rw [find_before width pattern (within_forward separator pattern within) _ _ (s :: before) other]
  | cons c text ih =>
      have further : location + width c + (weight width text + width s) =
          location + (weight width (c :: text) + width s) := by
        rw [weight_cons]
        omega
      cases skip with
      | succ skip =>
          simp only [List.cons_append, findFrom]
          rw [ih (location + width c) skip (c :: before) (Nat.le_of_succ_le_succ ahead), further]
      | zero =>
          have same : first pattern before ((c :: text) ++ s :: rest) = first pattern before (c :: text) :=
            congrArg List.head? (lengths_local separator pattern within before before (c :: text) rest s separates)
          simp only [List.cons_append] at same
          simp only [List.cons_append, findFrom]
          rw [same]
          cases found : first pattern before (c :: text) with
          | none =>
              simp only
              rw [ih (location + width c) 0 (c :: before) (Nat.zero_le _), further]
          | some n =>
              have bound := first_le pattern before (c :: text) n found
              have taken : ((c :: text) ++ s :: rest).take n = (c :: text).take n :=
                List.take_append_of_le_length bound
              simp only [List.cons_append] at taken
              rw [List.length_cons] at bound
              simp only [taken]
              rw [ih (location + width c) (n - 1) (c :: before) (by omega), further, List.cons_append]

theorem covers_local (pattern : Pattern α) (within : Within separator pattern) (text rest : List α) (s : α)
    (separates : separator s = true) (place : Nat) :
    Covers (findAll width pattern (text ++ s :: rest)) place ↔
      Covers (findAll width pattern text) place ∨
        weight width text + width s ≤ place ∧
          Covers (findAll width pattern rest) (place - (weight width text + width s)) := by
  unfold findAll
  rw [find_append separator width pattern within 0 0 [] [] text rest s separates (Nat.zero_le _), find_shift,
    covers_append, covers_shift]

end Locality

end Regex

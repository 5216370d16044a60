import CultivationMotain.CoreTextMagazine.MarkupPieces
import CultivationMotain.CoreTextMagazine.MarkupText

set_option autoImplicit false

namespace CultivationMotain.CoreTextMagazine

open Foundation Regex

variable {Color Font : Type} (device : Device Color Font)

-- An attributed string does not tell where its parts were appended.
def marks (runs : List (Run Color Font)) : List (Char × Attributes Color Font) :=
  runs.flatMap fun run => run.string.map fun c => (c, run.attributes)

-- none is an exception.
def parseResult (parser : MarkupParse Color Font) (markup : List Char) :
    Option (List (Char × Attributes Color Font) × List ImageRecord) :=
  (parseMarkup device parser markup).map fun parsed => (marks parsed.attributeString, parsed.images)

def lastColor (markup : List Char) : Color :=
  (((pieces device markup).flatMap (Piece.colors device)).map (colorValue device)).getLastD device.black

def lastFace (markup : List Char) : List Char :=
  ((pieces device markup).flatMap (Piece.faces device)).getLastD "Arial".toList

-- A color and a face left over from before show neither in a text nor in the
-- size of an image that comes before the first color or face of its own.
structure Agree (color other : Color) (fontName otherName : List Char) (before : List Piece) (piece : Piece) :
    Prop where
  color : piece.text ≠ [] → before.flatMap (Piece.colors device) = [] → color = other
  font : piece.text ≠ [] → before.flatMap (Piece.faces device) = [] → fontOf device fontName = fontOf device otherName
  size : ∀ fileName, piece.image device = some fileName → before.flatMap (Piece.faces device) = [] →
    imageSize device fileName (fontOf device fontName) = imageSize device fileName (fontOf device otherName)

def Unaffected (a b : List Char) : Prop :=
  (¬ ∀ piece ∈ pieces device b, piece.Known device) ∨
    (∀ piece ∈ pieces device a, piece.image device = none) ∧
      ∀ before piece after, pieces device b = before ++ piece :: after →
        Agree device (lastColor device a) device.black (lastFace device a) "Arial".toList before piece

section Last

theorem last_or_append {α : Type} (first second : List α) (default_ : α) :
    (first ++ second).getLastD default_ = second.getLastD (first.getLastD default_) := by
  rw [List.getLastD_eq_getLast?, List.getLastD_eq_getLast?, List.getLastD_eq_getLast?, List.getLast?_append]
  cases second.getLast? with
  | none => rfl
  | some last => rfl

theorem last_or_iff {α β : Type} (value : α → β) (items : List α) (default_ other : α) :
    value (items.getLastD default_) = value (items.getLastD other) ↔ (items = [] → value default_ = value other) := by
  rcases List.eq_nil_or_concat items with rfl | ⟨front, last, rfl⟩
  · exact ⟨fun same _ => same, fun same => same rfl⟩
  · rw [List.concat_eq_append, List.getLastD_concat, List.getLastD_concat]
    exact iff_of_true rfl fun absent => absurd absent (List.append_ne_nil_of_right_ne_nil _ (List.cons_ne_nil _ _))

theorem fold_last {α : Type} (items : List Piece) (values : Piece → List α) (default_ : α) :
    items.foldl (fun last piece => (values piece).getLastD last) default_ =
      (items.flatMap values).getLastD default_ := by
  induction items generalizing default_ with
  | nil => rfl
  | cons piece items ih => rw [List.foldl_cons, ih, List.flatMap_cons, last_or_append]

theorem split_cons {α : Type} (first : α) (rest : List α) (holds : List α → α → Prop) :
    (∀ before item after, first :: rest = before ++ item :: after → holds before item) ↔
      holds [] first ∧ ∀ before item after, rest = before ++ item :: after → holds (first :: before) item := by
  constructor
  · intro all
    exact ⟨all [] first rest rfl, fun before item after parts => all (first :: before) item after (by rw [parts]; rfl)⟩
  · rintro ⟨here, later⟩ before item after parts
    cases before with
    | nil =>
        cases parts
        exact here
    | cons other before =>
        cases parts
        exact later before item after rfl

end Last

section Comparing

variable (color other : Color) (fontName otherName : List Char)

theorem marks_append (first second : List (Run Color Font)) : marks (first ++ second) = marks first ++ marks second :=
  List.flatMap_append

theorem piece_marks_length (piece : Piece) :
    (marks (piece.runs device color fontName)).length = (marks (piece.runs device other otherName)).length := by
  simp only [marks, Piece.runs, List.flatMap_cons, List.length_append, List.length_map]
  cases piece.image device with
  | none => rfl
  | some fileName => rfl

theorem piece_records_length (piece : Piece) (location : Nat) :
    (piece.records device fontName location).length = (piece.records device otherName location).length := by
  simp only [Piece.records]
  cases piece.image device with
  | none => rfl
  | some fileName => rfl

theorem text_marks_iff (text : List Char) :
    text.map (fun c => (c, Attributes.text color (fontOf device fontName))) =
        text.map (fun c => (c, Attributes.text other (fontOf device otherName))) ↔
      (text ≠ [] → color = other ∧ fontOf device fontName = fontOf device otherName) := by
  cases text with
  | nil => exact iff_of_true rfl fun absent => absurd rfl absent
  | cons c text =>
      constructor
      · intro same _
        have here := congrArg Prod.snd (List.cons.inj same).1
        exact ⟨(Attributes.text.inj here).1, (Attributes.text.inj here).2⟩
      · intro same
        obtain ⟨rfl, font⟩ := same (List.cons_ne_nil c text)
        rw [font]

theorem piece_agrees_iff (piece : Piece) (location : Nat) :
    (marks (piece.runs device color fontName) = marks (piece.runs device other otherName) ∧
        piece.records device fontName location = piece.records device otherName location) ↔
      Agree device color other fontName otherName [] piece := by
  have text := text_marks_iff device color other fontName otherName piece.text
  have agree : Agree device color other fontName otherName [] piece ↔
      (piece.text ≠ [] → color = other ∧ fontOf device fontName = fontOf device otherName) ∧
        ∀ fileName, piece.image device = some fileName →
          imageSize device fileName (fontOf device fontName) = imageSize device fileName (fontOf device otherName) :=
    ⟨fun agree => ⟨fun present => ⟨agree.color present rfl, agree.font present rfl⟩,
        fun fileName image => agree.size fileName image rfl⟩,
      fun both => ⟨fun present _ => (both.1 present).1, fun present _ => (both.1 present).2,
        fun fileName image _ => both.2 fileName image⟩⟩
  rw [agree, ← text]
  simp only [marks, Piece.runs, Piece.records, List.flatMap_cons]
  cases image : piece.image device with
  | none =>
      simp only [List.flatMap_nil, List.append_nil]
      refine ⟨fun same => ⟨same.1, fun fileName absent => ?_⟩, fun same => ⟨same.1, trivial⟩⟩
      cases absent
  | some fileName =>
      constructor
      · rintro ⟨same, records⟩
        have sizes := (List.cons.inj records).1
        refine ⟨(List.append_inj same (by rw [List.length_map, List.length_map])).1, fun file found => ?_⟩
        obtain rfl := Option.some.inj found
        generalize imageSize device fileName (fontOf device fontName) = size at sizes
        generalize imageSize device fileName (fontOf device otherName) = otherSize at sizes
        cases size
        cases otherSize
        cases sizes
        rfl
      · rintro ⟨same, sizes⟩
        simp only [same, sizes fileName rfl, and_self]

theorem agree_later_iff (first : Piece) (before : List Piece) (piece : Piece) :
    Agree device (colorAfter device color first) (colorAfter device other first) (faceAfter device fontName first)
        (faceAfter device otherName first) before piece ↔
      Agree device color other fontName otherName (first :: before) piece := by
  have colors := last_or_iff id ((first.colors device).map (colorValue device)) color other
  have faces := fun {β : Type} (value : List Char → β) => last_or_iff value (first.faces device) fontName otherName
  have both : ∀ {α : Type} (values : Piece → List α), (first :: before).flatMap values = [] ↔
      values first = [] ∧ before.flatMap values = [] := fun values => by
    rw [List.flatMap_cons, List.append_eq_nil_iff]
  rw [List.map_eq_nil_iff] at colors
  constructor
  · intro agree
    refine ⟨fun present absent => ?_, fun present absent => ?_, fun fileName image absent => ?_⟩
    · obtain ⟨here, earlier⟩ := (both _).mp absent
      exact colors.mp (agree.color present earlier) here
    · obtain ⟨here, earlier⟩ := (both _).mp absent
      exact (faces (fontOf device)).mp (agree.font present earlier) here
    · obtain ⟨here, earlier⟩ := (both _).mp absent
      exact (faces fun name => imageSize device fileName (fontOf device name)).mp
        (agree.size fileName image earlier) here
  · intro agree
    refine ⟨fun present earlier => colors.mpr fun here => ?_, fun present earlier => ?_,
      fun fileName image earlier => ?_⟩
    · exact agree.color present ((both _).mpr ⟨here, earlier⟩)
    · exact (faces (fontOf device)).mpr fun here => agree.font present ((both _).mpr ⟨here, earlier⟩)
    · exact (faces fun name => imageSize device fileName (fontOf device name)).mpr fun here =>
        agree.size fileName image ((both _).mpr ⟨here, earlier⟩)

theorem output_agrees_iff (items : List Piece) (location : Nat) :
    (marks (runsFrom device color fontName items) = marks (runsFrom device other otherName items) ∧
        recordsFrom device fontName location items = recordsFrom device otherName location items) ↔
      ∀ before piece after, items = before ++ piece :: after →
        Agree device color other fontName otherName before piece := by
  induction items generalizing color other fontName otherName location with
  | nil =>
      refine iff_of_true ⟨rfl, rfl⟩ fun before piece after parts => ?_
      exact absurd parts.symm (List.append_ne_nil_of_right_ne_nil _ (List.cons_ne_nil _ _))
  | cons first rest ih =>
      rw [split_cons first rest (Agree device color other fontName otherName),
        ← piece_agrees_iff device color other fontName otherName first location]
      have later := ih (colorAfter device color first) (colorAfter device other first)
        (faceAfter device fontName first) (faceAfter device otherName first)
        (location + utf16Count (first.string device))
      simp only [agree_later_iff] at later
      rw [← later]
      simp only [runsFrom, recordsFrom, marks_append]
      constructor
      · rintro ⟨runs, records⟩
        obtain ⟨first_runs, rest_runs⟩ := List.append_inj runs (piece_marks_length ..)
        obtain ⟨first_records, rest_records⟩ := List.append_inj records (piece_records_length ..)
        exact ⟨⟨first_runs, first_records⟩, rest_runs, rest_records⟩
      · rintro ⟨⟨first_runs, first_records⟩, rest_runs, rest_records⟩
        rw [first_runs, first_records, rest_runs, rest_records]
        exact ⟨rfl, rfl⟩

end Comparing

theorem records_none_iff (items : List Piece) (fontName : List Char) (location : Nat) :
    recordsFrom device fontName location items = [] ↔ ∀ piece ∈ items, piece.image device = none := by
  induction items generalizing fontName location with
  | nil => exact iff_of_true rfl (List.forall_mem_nil _)
  | cons piece items ih =>
      rw [recordsFrom, List.append_eq_nil_iff, ih, List.forall_mem_cons]
      refine and_congr_left fun _ => ?_
      unfold Piece.records
      cases piece.image device with
      | none => exact iff_of_true rfl rfl
      | some fileName => exact iff_of_false (List.cons_ne_nil _ _) (Option.some_ne_none fileName)

theorem records_length (items : List Piece) (fontName otherName : List Char) (location : Nat) :
    (recordsFrom device fontName location items).length = (recordsFrom device otherName location items).length := by
  induction items generalizing fontName otherName location with
  | nil => rfl
  | cons piece items ih =>
      rw [recordsFrom, recordsFrom, List.length_append, List.length_append,
        piece_records_length device fontName otherName, ih _ (faceAfter device otherName piece)]

theorem parser_reuse_iff (a b : List Char) (used : MarkupParse Color Font)
    (parsed : parseMarkup device (.init device) a = some used) :
    parseResult device used b = parseResult device (.init device) b ↔ Unaffected device a b := by
  have known : ∀ piece ∈ pieces device a, piece.Known device := by
    by_contra unknown
    rw [parse_markup_raises device _ a unknown] at parsed
    cases parsed
  rw [parse_markup_known device _ a known] at parsed
  obtain rfl := Option.some.inj parsed
  unfold Unaffected
  by_cases returns : ∀ piece ∈ pieces device b, piece.Known device
  · rw [or_iff_right (not_not_intro returns)]
    have color : (pieces device a).foldl (colorAfter device) device.black = lastColor device a := by
      rw [lastColor, List.map_flatMap, ← fold_last]
      rfl
    have face : (pieces device a).foldl (faceAfter device) "Arial".toList = lastFace device a := by
      rw [lastFace, ← fold_last]
      rfl
    unfold parseResult
    rw [parse_markup_known device _ b returns, parse_markup_known device _ b returns]
    simp only [MarkupParse.init, Option.map_some, Option.some.injEq, Prod.mk.injEq, List.nil_append, color, face]
    rw [← output_agrees_iff device (lastColor device a) device.black (lastFace device a) "Arial".toList _ 0,
      ← records_none_iff device (pieces device a) "Arial".toList 0]
    have lengths := records_length device (pieces device b) (lastFace device a) "Arial".toList 0
    constructor
    · rintro ⟨runs, records⟩
      have total := congrArg List.length records
      rw [List.length_append] at total
      have imageFree : recordsFrom device "Arial".toList 0 (pieces device a) = [] :=
        List.length_eq_zero_iff.mp (by omega)
      rw [imageFree, List.nil_append] at records
      exact ⟨imageFree, runs, records⟩
    · rintro ⟨imageFree, runs, records⟩
      rw [imageFree, List.nil_append]
      exact ⟨runs, records⟩
  · unfold parseResult
    rw [parse_markup_raises device _ b returns, parse_markup_raises device _ b returns]
    exact iff_of_true rfl (.inl returns)

-- The answer of performColor tells red from black.
def redDevice : Device Bool Unit where
  characters := asciiCharacters
  joined := asciiDevice.joined
  nonempty := asciiDevice.nonempty
  completesPair := false
  wordCharacter := asciiDevice.wordCharacter
  performColor name := if name = "redColor".toList then some (some true) else none
  black := false
  fontNamed _ _ := some ()
  systemFont _ := ()
  lineHeight _ := 16
  imageNamed _ := none
  screen := asciiDevice.screen

def redTag : List Char := "<font color=\"red\">".toList

def redUsed : MarkupParse Bool Unit := ⟨true, "Arial".toList, [⟨[], .text false ()⟩, ⟨[], .text true ()⟩], []⟩

theorem red_pieces :
    pieces redDevice (redTag ++ ['a']) = [⟨[], some "font color=\"red\">".toList⟩, ⟨['a'], none⟩, ⟨[], none⟩] := by
  decide

-- The second text says its color itself.
theorem parse_after_red_agrees :
    parseResult redDevice redUsed (redTag ++ ['a']) = parseResult redDevice (.init redDevice) (redTag ++ ['a']) := by
  refine (parser_reuse_iff redDevice redTag (redTag ++ ['a']) redUsed rfl).mpr (.inr ⟨by decide, ?_⟩)
  rw [red_pieces]
  intro before piece after shape
  refine ⟨fun shown uncolored => ?_, fun _ _ => rfl, fun _ _ _ => rfl⟩
  cases before with
  | nil =>
      obtain ⟨rfl, _⟩ := List.cons.inj shape
      exact absurd rfl shown
  | cons first before =>
      obtain ⟨rfl, _⟩ := List.cons.inj shape
      cases (List.append_eq_nil_iff.mp uncolored).1

theorem red_text_after_reuse :
    ¬ ∀ a b used, parseMarkup redDevice (.init redDevice) a = some used →
      parseResult redDevice used b = parseResult redDevice (.init redDevice) b := by
  intro same
  have red : parseResult redDevice redUsed "a".toList = some ([('a', .text true ())], []) := rfl
  have black : parseResult redDevice (.init redDevice) "a".toList = some ([('a', .text false ())], []) := rfl
  have leaked := same redTag "a".toList redUsed rfl
  rw [red, black] at leaked
  cases leaked

end CultivationMotain.CoreTextMagazine

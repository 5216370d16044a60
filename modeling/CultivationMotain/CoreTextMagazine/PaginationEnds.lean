import CultivationMotain.CoreTextMagazine.CTView

set_option autoImplicit false

namespace CultivationMotain.CoreTextMagazine

open Foundation

variable {Color Font Picture : Type} (coreText : CoreText Color Font Picture)

def columnFrom (settings : CTSettings) (attribu : List (Run Color Font)) (position : Nat) : CFRange :=
  (coreText.createFrame attribu ⟨position, 0⟩ (columnPath settings)).visibleStringRange

-- A column shows text from the requested position on, none of it if nothing
-- fits.
def ShowsFrom : Prop :=
  ∀ attribu position path, position ≤ attributedLength attribu →
    (coreText.createFrame attribu ⟨position, 0⟩ path).visibleStringRange.location = position ∧
      position + (coreText.createFrame attribu ⟨position, 0⟩ path).visibleStringRange.length ≤ attributedLength attribu

def firstBuild : Build Picture := ⟨0, 0, 0, 0, []⟩

def LoopEnds (settings : CTSettings) (bounds : CGRect) (attribu : List (Run Color Font)) (images : List ImageRecord) :
    Prop :=
  ∃ turns, (buildColumns coreText settings bounds attribu images turns firstBuild).isSome

-- The places where columns end that follow each other from the start on.
inductive Reached (size : Nat → Nat) : Nat → Prop where
  | start : Reached size 0
  | next (position : Nat) (before : Reached size position) : Reached size (position + size position)

-- Before the end of the text no column is reached in which nothing fits.
def Advances (settings : CTSettings) (attribu : List (Run Color Font)) : Prop :=
  ∀ position, Reached (fun place => (columnFrom coreText settings attribu place).length) position →
    position < attributedLength attribu → 0 < (columnFrom coreText settings attribu position).length

theorem start_page_position (settings : CTSettings) (bounds : CGRect) (build : Build Picture) :
    (startPage settings bounds build).textPos = build.textPos := by
  unfold startPage
  by_cases full : truncatingRemainder build.columIndex settings.columnsPerPage = 0
  · rw [if_pos full]
  · rw [if_neg full]

theorem build_column_position (settings : CTSettings) (bounds : CGRect) (attribu : List (Run Color Font))
    (images : List ImageRecord) (build : Build Picture) :
    (buildColumn coreText settings bounds attribu images build).textPos =
      build.textPos + (columnFrom coreText settings attribu build.textPos).length := by
  unfold buildColumn columnFrom
  dsimp only
  rw [start_page_position]

theorem loop_stays (settings : CTSettings) (bounds : CGRect) (attribu : List (Run Color Font))
    (images : List ImageRecord) (turns : Nat) (build : Build Picture)
    (before : build.textPos < attributedLength attribu)
    (nothing : (columnFrom coreText settings attribu build.textPos).length = 0) :
    buildColumns coreText settings bounds attribu images turns build = none := by
  induction turns generalizing build with
  | zero => rw [buildColumns, if_pos before]
  | succ turns ih =>
      have place := build_column_position coreText settings bounds attribu images build
      rw [nothing, Nat.add_zero] at place
      rw [buildColumns, if_pos before]
      exact ih _ (by rwa [place]) (by rwa [place])

theorem loop_ends (settings : CTSettings) (bounds : CGRect) (attribu : List (Run Color Font))
    (images : List ImageRecord) (advances : Advances coreText settings attribu) (turns : Nat) (build : Build Picture)
    (reached : Reached (fun place => (columnFrom coreText settings attribu place).length) build.textPos)
    (enough : attributedLength attribu ≤ build.textPos + turns) :
    (buildColumns coreText settings bounds attribu images turns build).isSome := by
  induction turns generalizing build with
  | zero =>
      have ended : ¬ build.textPos < attributedLength attribu := Nat.not_lt_of_le enough
      rw [buildColumns, if_neg ended]
      rfl
  | succ turns ih =>
      by_cases before : build.textPos < attributedLength attribu
      · have forward := advances build.textPos reached before
        have place := build_column_position coreText settings bounds attribu images build
        rw [buildColumns, if_pos before]
        refine ih _ ?_ (by omega)
        rw [place]
        exact .next build.textPos reached
      · rw [buildColumns, if_neg before]
        rfl

theorem loop_reaches (settings : CTSettings) (bounds : CGRect) (attribu : List (Run Color Font))
    (images : List ImageRecord) (ends : LoopEnds coreText settings bounds attribu images) (position : Nat)
    (reached : Reached (fun place => (columnFrom coreText settings attribu place).length) position) :
    ∃ turns build, build.textPos = position ∧
      (buildColumns coreText settings bounds attribu images turns build).isSome := by
  induction reached with
  | start =>
      obtain ⟨turns, ended⟩ := ends
      exact ⟨turns, firstBuild, rfl, ended⟩
  | next position _ ih =>
      obtain ⟨turns, build, rfl, ended⟩ := ih
      have place := build_column_position coreText settings bounds attribu images build
      by_cases before : build.textPos < attributedLength attribu
      · cases turns with
        | zero =>
            rw [buildColumns, if_pos before] at ended
            cases ended
        | succ turns =>
            rw [buildColumns, if_pos before] at ended
            exact ⟨turns, _, place, ended⟩
      · refine ⟨0, buildColumn coreText settings bounds attribu images build, place, ?_⟩
        have ended_too : ¬ (buildColumn coreText settings bounds attribu images build).textPos <
            attributedLength attribu := by
          rw [place]
          omega
        rw [buildColumns, if_neg ended_too]
        rfl

theorem loop_ends_iff (settings : CTSettings) (bounds : CGRect) (attribu : List (Run Color Font))
    (images : List ImageRecord) :
    LoopEnds coreText settings bounds attribu images ↔ Advances coreText settings attribu := by
  constructor
  · intro ends position reached before
    obtain ⟨turns, build, rfl, ended⟩ := loop_reaches coreText settings bounds attribu images ends position reached
    refine Nat.pos_of_ne_zero fun nothing => ?_
    rw [loop_stays coreText settings bounds attribu images turns build before nothing] at ended
    cases ended
  · intro advances
    exact ⟨attributedLength attribu, loop_ends coreText settings bounds attribu images advances _ firstBuild .start
      (Nat.le_add_left _ _)⟩

-- The turns that buidFrames is given are enough for every loop that ends.
theorem buid_frames_returns_iff (bounds : CGRect) (attribu : List (Run Color Font)) (images : List ImageRecord) :
    (buidFrames coreText bounds attribu images).isSome ↔
      LoopEnds coreText (CTSettings.init coreText.screen) bounds attribu images := by
  unfold buidFrames
  rw [Option.isSome_map]
  constructor
  · exact fun ended => ⟨attributedLength attribu, ended⟩
  · intro ends
    have advances := (loop_ends_iff coreText _ bounds attribu images).mp ends
    exact loop_ends coreText _ bounds attribu images advances _ firstBuild .start (Nat.le_add_left _ _)

theorem pagination_ends_iff (bounds : CGRect) (attribu : List (Run Color Font)) (images : List ImageRecord) :
    (LoopEnds coreText (CTSettings.init coreText.screen) bounds attribu images ↔
        Advances coreText (CTSettings.init coreText.screen) attribu) ∧
      ((buidFrames coreText bounds attribu images).isSome ↔
        Advances coreText (CTSettings.init coreText.screen) attribu) := by
  have ends := loop_ends_iff coreText (CTSettings.init coreText.screen) bounds attribu images
  exact ⟨ends, (buid_frames_returns_iff coreText bounds attribu images).trans ends⟩

def lineHeight (run : Run Unit CGFloat) : CGFloat :=
  match run.attributes with
  | .text _ font => font
  | .delegate ascent descent _ => ascent + descent

-- A framesetter that puts the rest of the text into any column that its lines
-- have room in. A font is the height of its lines.
def phone : CoreText Unit CGFloat Unit where
  createFrame attribu range path :=
    ⟨[], ⟨range.location,
      if attribu.all fun run => lineHeight run ≤ path.height then attributedLength attribu - range.location else 0⟩⟩
  imageNamed _ := none
  screen := ⟨⟨0, 0, 375, 667⟩, true⟩

def tallLetter : List (Run Unit CGFloat) := [⟨['a'], .text () 600⟩]

theorem tall_line_loops :
    ShowsFrom phone ∧ ¬ LoopEnds phone (CTSettings.init phone.screen) ⟨0, 0, 375, 667⟩ tallLetter [] := by
  constructor
  · intro attribu position path inside
    refine ⟨rfl, ?_⟩
    unfold phone
    dsimp only
    split_ifs
    · omega
    · exact inside
  · rintro ⟨turns, ended⟩
    rw [loop_stays phone _ _ tallLetter [] turns firstBuild (by decide) (by decide +kernel)] at ended
    cases ended

end CultivationMotain.CoreTextMagazine

import CultivationMotain.CoreTextMagazine.CTView
import CultivationMotain.Library.Serving

set_option autoImplicit false

namespace CultivationMotain.CoreTextMagazine

open Foundation Serving

def Holds (range : CFRange) (location : Nat) : Prop :=
  range.location ≤ location ∧ location < range.location + range.length

instance (range : CFRange) (location : Nat) : Decidable (Holds range location) :=
  inferInstanceAs (Decidable (_ ∧ _))

def runHolds (run : CTRun) (image : ImageRecord) : Bool := decide (Holds run.stringRange image.location)

section Pagination

-- The runs of a line divide its range. They need not be in the order of the
-- text.
structure Divided (line : CTLine) (start finish : Nat) : Prop where
  inside : ∀ run ∈ line.glyphRuns, ∀ location, Holds run.stringRange location → start ≤ location ∧ location < finish
  covers : ∀ location, start ≤ location → location < finish → ∃ run ∈ line.glyphRuns, Holds run.stringRange location
  apart : line.glyphRuns.Pairwise fun first second =>
    ∀ location, ¬ (Holds first.stringRange location ∧ Holds second.stringRange location)

inductive Fills : Nat → List (CTLine × CGPoint) → Nat → Prop where
  | nil (position : Nat) : Fills position [] position
  | cons (start middle finish : Nat) (line : CTLine × CGPoint) (lines : List (CTLine × CGPoint))
      (forward : start ≤ middle) (divided : Divided line.1 start middle) (rest : Fills middle lines finish) :
      Fills start (line :: lines) finish

-- The frames from a position on are columns that follow each other up to the
-- end of the text.
inductive Paginates (frameFrom : Nat → CTFrame) (length : Nat) : Nat → List CTFrame → Prop where
  | done : Paginates frameFrom length length []
  | column (position : Nat) (columns : List CTFrame) (inside : position < length)
      (start : (frameFrom position).visibleStringRange.location = position)
      (advances : 0 < (frameFrom position).visibleStringRange.length)
      (fills : Fills position (frameFrom position).lines (position + (frameFrom position).visibleStringRange.length))
      (rest : Paginates frameFrom length (position + (frameFrom position).visibleStringRange.length) columns) :
      Paginates frameFrom length position (frameFrom position :: columns)

abbrev TextLine := CFRange × CTLine × CGPoint

def frameLines (frame : CTFrame) : List TextLine := frame.lines.map fun line => (frame.visibleStringRange, line)

def textLines (columns : List CTFrame) : List TextLine := columns.flatMap frameLines

def glyphRuns (line : TextLine) : List CTRun := line.2.1.glyphRuns

variable {Color Font Picture : Type} (coreText : CoreText Color Font Picture)

def frameFrom (attribu : List (Run Color Font)) (position : Nat) : CTFrame :=
  coreText.createFrame attribu ⟨position, 0⟩ (columnPath (CTSettings.init coreText.screen))

end Pagination

section Placement

variable {Color Font Picture : Type} (coreText : CoreText Color Font Picture)

def attachments (view : CTView Picture) : List (CFRange × Attachment Picture) :=
  view.columns.flatMap fun column => column.images.map fun attached => (column.ctframe.visibleStringRange, attached)

def AttachedOnce (view : CTView Picture) (image : ImageRecord) (picture : Picture) : Prop :=
  ∃ column ∈ view.columns, ∃ line ∈ column.ctframe.lines, ∃ run ∈ line.1.glyphRuns,
    Holds column.ctframe.visibleStringRange image.location ∧ Holds run.stringRange image.location ∧
      (attachments view).filter (fun placed => placed.2.record = image) =
        [(column.ctframe.visibleStringRange, ⟨picture, imageBounds line run, image⟩)]

-- Every image with a file is attached, also those behind one without.
def PlacesImages (bounds : CGRect) (attribu : List (Run Color Font)) (images : List ImageRecord) : Prop :=
  ∃ view, buidFrames coreText bounds attribu images = some view ∧
    ∀ image ∈ images, ∀ picture, coreText.imageNamed image.filename = some picture → AttachedOnce view image picture

variable (columns : List CTFrame)

-- The places of an image's line among the lines of the text and of its run
-- among the runs, in the order they are visited.
def lineOf (image : ImageRecord) : Nat := groupOf glyphRuns runHolds (textLines columns) image

def runOf (image : ImageRecord) : Nat := deskOf runHolds ((textLines columns).flatMap glyphRuns) image

def linePicture (images : List ImageRecord) (image : ImageRecord) : Option Picture :=
  (images.find? fun other => lineOf columns other == lineOf columns image).bind fun first =>
    coreText.imageNamed first.filename

-- Up to every image with a file, the images are in ever later runs and the
-- first one on each line has a file, on the image's own line one with its
-- picture.
def Placeable (images : List ImageRecord) : Prop :=
  ∀ before image after picture, images = before ++ image :: after →
    coreText.imageNamed image.filename = some picture →
      (before ++ [image]).Pairwise (fun first second => runOf columns first < runOf columns second) ∧
      (∀ other ∈ before ++ [image], (linePicture coreText columns images other).isSome) ∧
      linePicture coreText columns images image = some picture

end Placement

section Lines

theorem run_holds_iff (run : CTRun) (image : ImageRecord) :
    runHolds run image = true ↔ Holds run.stringRange image.location :=
  decide_eq_true_iff

theorem single_run_divided (line : CTLine) (run : CTRun) (start finish : Nat) (only : line.glyphRuns = [run])
    (range : run.stringRange.location = start ∧ run.stringRange.location + run.stringRange.length = finish) :
    Divided line start finish := by
  obtain ⟨rfl, rfl⟩ := range
  refine ⟨?_, fun location after before => ⟨run, ?_, after, before⟩, ?_⟩
  · rw [only]
    exact List.forall_mem_singleton.mpr fun location holds => holds
  · rw [only]
    exact List.mem_cons_self
  · rw [only]
    exact List.pairwise_singleton _ run

theorem fills_append (start middle finish : Nat) (first second : List (CTLine × CGPoint))
    (filled : Fills start first middle) (rest : Fills middle second finish) : Fills start (first ++ second) finish := by
  induction filled with
  | nil position => exact rest
  | cons start between middle line lines forward divided _ ih =>
      exact .cons start between finish line (lines ++ second) forward divided (ih rest)

theorem fills_forward (start finish : Nat) (lines : List (CTLine × CGPoint)) (fills : Fills start lines finish) :
    start ≤ finish := by
  induction fills with
  | nil position => exact Nat.le_refl position
  | cons start middle finish line lines forward _ _ ih => exact Nat.le_trans forward ih

theorem paginates_fills (frames : Nat → CTFrame) (length position : Nat) (columns : List CTFrame)
    (paginated : Paginates frames length position columns) :
    Fills position ((textLines columns).map Prod.snd) length := by
  induction paginated with
  | done => exact .nil length
  | column position columns _ _ _ fills _ ih =>
      have own : (frameLines (frames position)).map Prod.snd = (frames position).lines := by
        simp [frameLines, Function.comp_def]
      rw [textLines, List.flatMap_cons, List.map_append, own]
      exact fills_append _ _ _ _ _ fills ih

theorem fills_inside (start finish : Nat) (lines : List TextLine) (fills : Fills start (lines.map Prod.snd) finish) :
    ∀ line ∈ lines, ∀ run ∈ glyphRuns line, ∀ location, Holds run.stringRange location →
      start ≤ location ∧ location < finish := by
  induction lines generalizing start with
  | nil => exact fun line absent => nomatch absent
  | cons line lines ih =>
      cases fills with
      | cons _ middle _ _ _ forward divided rest =>
          have onward := fills_forward middle finish _ rest
          refine List.forall_mem_cons.mpr ⟨fun run run_in location holds => ?_,
            fun other other_in run run_in location holds => ?_⟩
          · have bounds := divided.inside run run_in location holds
            omega
          · have bounds := ih middle rest other other_in run run_in location holds
            omega

theorem fills_covers (start finish : Nat) (lines : List TextLine) (fills : Fills start (lines.map Prod.snd) finish)
    (location : Nat) (after : start ≤ location) (before : location < finish) :
    ∃ run ∈ lines.flatMap glyphRuns, Holds run.stringRange location := by
  induction lines generalizing start with
  | nil =>
      cases fills
      exact absurd (Nat.lt_of_le_of_lt after before) (Nat.lt_irrefl _)
  | cons line lines ih =>
      cases fills with
      | cons _ middle _ _ _ forward divided rest =>
          rw [List.flatMap_cons]
          by_cases here : location < middle
          · obtain ⟨run, run_in, holds⟩ := divided.covers location after here
            exact ⟨run, List.mem_append_left _ run_in, holds⟩
          · obtain ⟨run, run_in, holds⟩ := ih middle rest (Nat.le_of_not_lt here)
            exact ⟨run, List.mem_append_right _ run_in, holds⟩

theorem fills_apart (start finish : Nat) (lines : List TextLine) (fills : Fills start (lines.map Prod.snd) finish) :
    Apart runHolds (lines.flatMap glyphRuns) := by
  induction lines generalizing start with
  | nil => exact List.Pairwise.nil
  | cons line lines ih =>
      cases fills with
      | cons _ middle _ _ _ forward divided rest =>
          rw [List.flatMap_cons]
          refine List.pairwise_append.mpr ⟨?_, ih middle rest, ?_⟩
          · refine divided.apart.imp fun {first second} alone image both => ?_
            rw [run_holds_iff, run_holds_iff] at both
            exact alone image.location both
          · intro first first_in second second_in image both
            rw [run_holds_iff, run_holds_iff] at both
            obtain ⟨other, other_in, among⟩ := List.mem_flatMap.mp second_in
            have here := divided.inside first first_in image.location both.1
            have later := fills_inside middle finish lines rest other other_in second among image.location both.2
            omega

theorem in_line_iff (start middle : Nat) (line : TextLine) (divided : Divided line.2.1 start middle)
    (image : ImageRecord) (after : start ≤ image.location) :
    inGroup glyphRuns runHolds line image = true ↔ image.location < middle := by
  constructor
  · intro here
    obtain ⟨run, run_in, holds⟩ := List.any_eq_true.mp here
    exact (divided.inside run run_in image.location ((run_holds_iff run image).mp holds)).2
  · intro before
    obtain ⟨run, run_in, holds⟩ := divided.covers image.location after before
    exact List.any_eq_true.mpr ⟨run, run_in, (run_holds_iff run image).mpr holds⟩

theorem line_order (start finish : Nat) (lines : List TextLine) (fills : Fills start (lines.map Prod.snd) finish)
    (first second : ImageRecord) (after : start ≤ first.location) (order : first.location ≤ second.location) :
    groupOf glyphRuns runHolds lines first ≤ groupOf glyphRuns runHolds lines second := by
  induction lines generalizing start with
  | nil => exact Nat.le_refl _
  | cons line lines ih =>
      cases fills with
      | cons _ middle _ _ _ forward divided rest =>
          by_cases here : first.location < middle
          · rw [group_of_here line lines first ((in_line_iff start middle line divided first after).mpr here)]
            exact Nat.zero_le _
          · have later : ¬ second.location < middle := fun early => here (Nat.lt_of_le_of_lt order early)
            rw [group_of_later line lines first fun inside =>
                here ((in_line_iff start middle line divided first after).mp inside),
              group_of_later line lines second fun inside =>
                later ((in_line_iff start middle line divided second (Nat.le_trans after order)).mp inside)]
            exact Nat.succ_le_succ (ih middle rest (Nat.le_of_not_lt here))

theorem column_range (frames : Nat → CTFrame) (length position : Nat) (columns : List CTFrame)
    (paginated : Paginates frames length position columns) (line : TextLine) (member : line ∈ textLines columns)
    (run : CTRun) (run_in : run ∈ glyphRuns line) (location : Nat) (holds : Holds run.stringRange location) :
    Holds line.1 location := by
  induction paginated with
  | done => cases member
  | column position columns _ start _ fills _ ih =>
      rcases List.mem_append.mp member with own | later
      · have inside := fills_inside position _ (frameLines (frames position))
          (by simpa [frameLines, Function.comp_def] using fills) line own run run_in location holds
        obtain ⟨placed, _, rfl⟩ := List.mem_map.mp own
        unfold Holds
        rw [start]
        exact inside
      · exact ih later

end Lines

section Walking

variable {Color Font Picture : Type} (coreText : CoreText Color Font Picture) (images : List ImageRecord)

def opensLine (image : ImageRecord) : Option Picture := coreText.imageNamed image.filename

def attachmentOf (served : Service TextLine CTRun ImageRecord Picture) : Attachment Picture :=
  ⟨served.token, imageBounds served.group.2 served.desk, served.item⟩

-- After the last image the loop goes on with its record, which no run to come
-- holds.
structure Waits (walk : ImageWalk Picture) (runs : List CTRun) : Prop where
  location : walk.imgLocation = walk.nextImage.location
  next : images[walk.imageIndex]? = some walk.nextImage ∨
    images.length ≤ walk.imageIndex ∧ ∀ run ∈ runs, ¬ runHolds run walk.nextImage = true

theorem waits_queue (walk : ImageWalk Picture) (runs : List CTRun) (waits : Waits images walk runs) :
    images.drop walk.imageIndex = walk.nextImage :: images.drop (walk.imageIndex + 1) ∨
      images.drop walk.imageIndex = [] ∧ ∀ run ∈ runs, ¬ runHolds run walk.nextImage = true := by
  rcases waits.next with present | ⟨ended, refused⟩
  · obtain ⟨bound, same⟩ := List.getElem?_eq_some_iff.mp present
    exact .inl (same ▸ List.drop_eq_getElem_cons bound)
  · exact .inr ⟨List.drop_eq_nil_of_le ended, refused⟩

theorem visit_run_refused (line : CTLine × CGPoint) (img : Picture) (walk : ImageWalk Picture) (run : CTRun)
    (location : walk.imgLocation = walk.nextImage.location) (refused : ¬ runHolds run walk.nextImage = true) :
    visitRun images line img walk run = walk := by
  rw [run_holds_iff, Holds, ← location] at refused
  exact if_pos (by omega)

theorem visit_run_held (line : CTLine × CGPoint) (img : Picture) (walk : ImageWalk Picture) (run : CTRun)
    (runs : List CTRun) (alone : ∀ other ∈ runs, ∀ image, ¬ (runHolds run image = true ∧ runHolds other image = true))
    (location : walk.imgLocation = walk.nextImage.location) (held : runHolds run walk.nextImage = true) :
    (visitRun images line img walk run).images =
        walk.images ++ [⟨img, imageBounds line run, walk.nextImage⟩] ∧
      (visitRun images line img walk run).imageIndex = walk.imageIndex + 1 ∧
      Waits images (visitRun images line img walk run) runs := by
  have inside := (run_holds_iff run walk.nextImage).mp held
  rw [Holds, ← location] at inside
  have reached : ¬ (run.stringRange.location > walk.imgLocation ∨
      run.stringRange.location + run.stringRange.length ≤ walk.imgLocation) := by omega
  unfold visitRun
  dsimp only
  rw [if_neg reached]
  cases following : images[walk.imageIndex + 1]? with
  | none =>
      exact ⟨rfl, rfl, location, .inr ⟨List.getElem?_eq_none_iff.mp following,
        fun other member again => alone other member walk.nextImage ⟨held, again⟩⟩⟩
  | some nextImage => exact ⟨rfl, rfl, rfl, .inl following⟩

theorem visit_runs (line : CTLine × CGPoint) (img : Picture) (runs later : List CTRun) (walk : ImageWalk Picture)
    (apart : Apart runHolds (runs ++ later)) (waits : Waits images walk (runs ++ later)) :
    (runs.foldl (visitRun images line img) walk).images = walk.images ++
        (serve runHolds runs (images.drop walk.imageIndex)).map
          (fun served => ⟨img, imageBounds line served.1, served.2⟩) ∧
      (runs.foldl (visitRun images line img) walk).imageIndex =
        walk.imageIndex + (serve runHolds runs (images.drop walk.imageIndex)).length ∧
      Waits images (runs.foldl (visitRun images line img) walk) later := by
  induction runs generalizing walk with
  | nil => exact ⟨(List.append_nil _).symm, rfl, waits⟩
  | cons run runs ih =>
      obtain ⟨alone, apart⟩ := List.pairwise_cons.mp apart
      rw [List.foldl_cons]
      by_cases held : runHolds run walk.nextImage = true
      · have queue : images.drop walk.imageIndex = walk.nextImage :: images.drop (walk.imageIndex + 1) :=
          (waits_queue images walk _ waits).resolve_right fun ended => ended.2 run List.mem_cons_self held
        obtain ⟨attached, moved, waiting⟩ :=
          visit_run_held images line img walk run (runs ++ later) alone waits.location held
        obtain ⟨all, count, rest⟩ := ih (visitRun images line img walk run) apart waiting
        rw [all, count, attached, moved, queue, serve, if_pos held]
        refine ⟨by rw [List.append_assoc]; rfl, ?_, rest⟩
        rw [List.length_cons]
        omega
      · have skipped : serve runHolds (run :: runs) (images.drop walk.imageIndex) =
            serve runHolds runs (images.drop walk.imageIndex) := by
          rcases waits_queue images walk _ waits with queue | ⟨empty, _⟩
          · rw [queue, serve, if_neg held]
          · rw [empty, serve_nil, serve_nil]
        rw [visit_run_refused images line img walk run waits.location held, skipped]
        exact ih walk apart ⟨waits.location, waits.next.imp_right fun ended =>
          ⟨ended.1, fun other member => ended.2 other (List.mem_cons_of_mem run member)⟩⟩

theorem visit_line (range : CFRange) (line : CTLine × CGPoint) (later : List CTRun) (walk : ImageWalk Picture)
    (apart : Apart runHolds (glyphRuns (range, line) ++ later))
    (waits : Waits images walk (glyphRuns (range, line) ++ later)) :
    (visitLine coreText images walk line).images = walk.images ++
        (serveGroup glyphRuns runHolds (opensLine coreText) (range, line) (images.drop walk.imageIndex)).map
          attachmentOf ∧
      (visitLine coreText images walk line).imageIndex = walk.imageIndex +
        (serveGroup glyphRuns runHolds (opensLine coreText) (range, line) (images.drop walk.imageIndex)).length ∧
      Waits images (visitLine coreText images walk line) later := by
  have onward : Waits images walk later := ⟨waits.location, waits.next.imp_right fun ended =>
    ⟨ended.1, fun other member => ended.2 other (List.mem_append_right _ member)⟩⟩
  unfold visitLine serveGroup
  cases found : coreText.imageNamed walk.nextImage.filename with
  | none =>
      have closed : (images.drop walk.imageIndex).head?.bind (opensLine coreText) = none := by
        rcases waits_queue images walk _ waits with queue | ⟨empty, _⟩
        · rw [queue]
          exact found
        · rw [empty]
          rfl
      rw [closed]
      exact ⟨(List.append_nil _).symm, rfl, onward⟩
  | some img =>
      obtain ⟨all, count, rest⟩ := visit_runs images line img (glyphRuns (range, line)) later walk apart waits
      rcases waits_queue images walk _ waits with queue | ⟨empty, _⟩
      · have opened : (images.drop walk.imageIndex).head?.bind (opensLine coreText) = some img := by
          rw [queue]
          exact found
        rw [opened]
        refine ⟨all.trans ?_, count.trans ?_, rest⟩
        · rw [List.map_map]
          rfl
        · rw [List.length_map]
      · rw [empty, serve_nil] at all count
        rw [empty]
        exact ⟨all, count, rest⟩

theorem visit_lines (range : CFRange) (lines : List (CTLine × CGPoint)) (walk : ImageWalk Picture)
    (apart : Apart runHolds ((lines.map (Prod.mk range)).flatMap glyphRuns))
    (waits : Waits images walk ((lines.map (Prod.mk range)).flatMap glyphRuns)) :
    (lines.foldl (visitLine coreText images) walk).images = walk.images ++
        (rounds glyphRuns runHolds (opensLine coreText) (lines.map (Prod.mk range))
          (images.drop walk.imageIndex)).map attachmentOf ∧
      (lines.foldl (visitLine coreText images) walk).imageIndex = walk.imageIndex +
        (rounds glyphRuns runHolds (opensLine coreText) (lines.map (Prod.mk range))
          (images.drop walk.imageIndex)).length := by
  induction lines generalizing walk with
  | nil => exact ⟨(List.append_nil _).symm, rfl⟩
  | cons line lines ih =>
      rw [List.map_cons, List.flatMap_cons] at apart waits
      obtain ⟨attached, moved, waiting⟩ := visit_line coreText images range line _ walk apart waits
      obtain ⟨all, count⟩ := ih (visitLine coreText images walk line) (List.pairwise_append.mp apart).2.1 waiting
      rw [List.foldl_cons, all, count, attached, moved, List.map_cons, rounds, List.drop_drop]
      constructor
      · rw [List.append_assoc, List.map_append]
      · rw [List.length_append, Nat.add_assoc]

end Walking

section Columns

variable {Color Font Picture : Type} (coreText : CoreText Color Font Picture)

def Build.columns (build : Build Picture) : List (CTColumnView Picture) := build.pages.flatMap PageView.columns

def columnAttachments (column : CTColumnView Picture) : List (CFRange × Attachment Picture) :=
  column.images.map fun attached => (column.ctframe.visibleStringRange, attached)

def placedAt (served : Service TextLine CTRun ImageRecord Picture) : CFRange × Attachment Picture :=
  (served.group.1, attachmentOf served)

def Paged (build : Build Picture) : Prop := build.pages ≠ [] ∨ build.columIndex = 0

theorem start_page_keeps (settings : CTSettings) (bounds : CGRect) (build : Build Picture) (paged : Paged build) :
    (startPage settings bounds build).pages ≠ [] ∧ (startPage settings bounds build).columns = build.columns ∧
      (startPage settings bounds build).imageIndex = build.imageIndex ∧
      (startPage settings bounds build).textPos = build.textPos := by
  unfold startPage
  by_cases full : truncatingRemainder build.columIndex settings.columnsPerPage = 0
  · rw [if_pos full]
    refine ⟨List.append_ne_nil_of_right_ne_nil _ (List.cons_ne_nil _ _), ?_, rfl, rfl⟩
    simp [Build.columns]
  · rw [if_neg full]
    refine ⟨paged.resolve_right fun first => full ?_, rfl, rfl, rfl⟩
    have quotient : (0 : CGFloat) / settings.columnsPerPage = 0 := by rw [Rat.div_def, Rat.zero_mul]
    rw [truncatingRemainder, first, quotient]
    simp

theorem add_column_last (pages : List (PageView Picture)) (columView : CTColumnView Picture) (shown : pages ≠ []) :
    addColumn pages columView ≠ [] ∧
      (addColumn pages columView).flatMap PageView.columns = pages.flatMap PageView.columns ++ [columView] := by
  unfold addColumn
  rw [List.getLast?_eq_some_getLast shown]
  refine ⟨List.append_ne_nil_of_right_ne_nil _ (List.cons_ne_nil _ _), ?_⟩
  conv_rhs => rw [← List.dropLast_concat_getLast shown]
  simp

theorem attach_images_placed (images : List ImageRecord) (ctframe : CTFrame) (imageIndex : Nat)
    (apart : Apart runHolds ((frameLines ctframe).flatMap glyphRuns)) :
    (if present : images.length > imageIndex then
      ((attachImagesWithFrane coreText images ctframe imageIndex present).images,
        (attachImagesWithFrane coreText images ctframe imageIndex present).imageIndex)
    else ([], imageIndex)) =
      ((rounds glyphRuns runHolds (opensLine coreText) (frameLines ctframe) (images.drop imageIndex)).map attachmentOf,
        imageIndex +
          (rounds glyphRuns runHolds (opensLine coreText) (frameLines ctframe) (images.drop imageIndex)).length) := by
  split
  · rename_i present
    obtain ⟨all, count⟩ := visit_lines coreText images ctframe.visibleStringRange ctframe.lines
      ⟨imageIndex, images[imageIndex], images[imageIndex].location, []⟩ apart
      ⟨rfl, .inl (List.getElem?_eq_getElem present)⟩
    exact Prod.ext all count
  · rename_i ended
    rw [List.drop_eq_nil_of_le (Nat.le_of_not_lt ended), rounds_nil]
    rfl

theorem build_column_placed (bounds : CGRect) (attribu : List (Run Color Font)) (images : List ImageRecord)
    (build : Build Picture) (paged : Paged build)
    (apart : Apart runHolds ((frameLines (frameFrom coreText attribu build.textPos)).flatMap glyphRuns)) :
    ∃ columView, columView.ctframe = frameFrom coreText attribu build.textPos ∧
      columView.images = (rounds glyphRuns runHolds (opensLine coreText) (frameLines columView.ctframe)
        (images.drop build.imageIndex)).map attachmentOf ∧
      ∃ next, buildColumn coreText (CTSettings.init coreText.screen) bounds attribu images build = next ∧ Paged next ∧
        next.columns = build.columns ++ [columView] ∧
        next.textPos = build.textPos + columView.ctframe.visibleStringRange.length ∧
        next.imageIndex = build.imageIndex + columView.images.length := by
  obtain ⟨shown, same_columns, same_index, same_position⟩ :=
    start_page_keeps (CTSettings.init coreText.screen) bounds build paged
  have placed := attach_images_placed coreText images (frameFrom coreText attribu build.textPos) build.imageIndex apart
  have framed : coreText.createFrame attribu ⟨build.textPos, 0⟩ (columnPath (CTSettings.init coreText.screen)) =
    frameFrom coreText attribu build.textPos := rfl
  unfold buildColumn
  dsimp only
  rw [same_index, same_position, framed, placed]
  generalize (CTSettings.init coreText.screen).columnRect.offsetBy _ 0 = columnFrame
  obtain ⟨added, last⟩ := add_column_last _ ⟨columnFrame, frameFrom coreText attribu build.textPos,
    (rounds glyphRuns runHolds (opensLine coreText) (frameLines (frameFrom coreText attribu build.textPos))
      (images.drop build.imageIndex)).map attachmentOf⟩ shown
  exact ⟨_, rfl, rfl, _, rfl, .inl added, last.trans (congrArg (· ++ _) same_columns), rfl,
    congrArg (build.imageIndex + ·) (List.length_map _).symm⟩

theorem column_attachments (column : CTColumnView Picture) (queue : List ImageRecord)
    (attached : column.images =
      (rounds glyphRuns runHolds (opensLine coreText) (frameLines column.ctframe) queue).map attachmentOf) :
    columnAttachments column =
      (rounds glyphRuns runHolds (opensLine coreText) (frameLines column.ctframe) queue).map placedAt := by
  rw [columnAttachments, attached, List.map_map]
  refine List.map_congr_left fun served member => ?_
  obtain ⟨placed, _, _⟩ := rounds_sound glyphRuns runHolds (opensLine coreText) _ _ served member
  obtain ⟨line, _, same⟩ := List.mem_map.mp placed
  rw [placedAt, ← same]
  rfl

theorem build_columns_placed (bounds : CGRect) (attribu : List (Run Color Font)) (images : List ImageRecord)
    (position : Nat) (columns : List CTFrame)
    (paginated : Paginates (frameFrom coreText attribu) (attributedLength attribu) position columns)
    (apart : Apart runHolds ((textLines columns).flatMap glyphRuns)) (turns : Nat) (build : Build Picture)
    (enough : attributedLength attribu ≤ position + turns) (paged : Paged build) (there : build.textPos = position) :
    ∃ final shown, buildColumns coreText (CTSettings.init coreText.screen) bounds attribu images turns build =
        some final ∧ final.columns = build.columns ++ shown ∧ shown.map CTColumnView.ctframe = columns ∧
      shown.flatMap columnAttachments =
        (rounds glyphRuns runHolds (opensLine coreText) (textLines columns) (images.drop build.imageIndex)).map
          placedAt := by
  induction paginated generalizing turns build with
  | done =>
      have ended : ¬ build.textPos < attributedLength attribu := there ▸ Nat.lt_irrefl _
      refine ⟨build, [], ?_, (List.append_nil _).symm, rfl, rfl⟩
      cases turns with
      | zero => rw [buildColumns, if_neg ended]
      | succ turns => rw [buildColumns, if_neg ended]
  | column position columns inside _ advances _ _ ih =>
      subst there
      rw [textLines, List.flatMap_cons, List.flatMap_append] at apart
      obtain ⟨apart_here, apart_later, _⟩ := List.pairwise_append.mp apart
      obtain ⟨columView, framed, attached, next, built, paged_next, added, moved, count⟩ :=
        build_column_placed coreText bounds attribu images build paged apart_here
      cases turns with
      | zero => omega
      | succ turns =>
          obtain ⟨final, shown, ran, all, frames, later⟩ := ih apart_later turns next (by omega) paged_next
            (by rw [moved, framed])
          refine ⟨final, columView :: shown, ?_, ?_, ?_, ?_⟩
          · rw [buildColumns, if_pos inside, built]
            exact ran
          · rw [all, added, List.append_assoc]
            rfl
          · rw [List.map_cons, framed, frames]
          · have own := column_attachments coreText columView (images.drop build.imageIndex) attached
            rw [List.flatMap_cons, own, later, count, attached, List.length_map, framed, textLines, textLines,
              List.flatMap_cons, rounds_append, List.map_append, List.drop_drop]

end Columns

theorem attached_once_iff {Color Font Picture : Type} (coreText : CoreText Color Font Picture)
    (columns : List CTFrame) (images : List ImageRecord) (view : CTView Picture) (image : ImageRecord)
    (picture : Picture)
    (ranges : ∀ line ∈ textLines columns, ∀ run ∈ glyphRuns line, ∀ location,
      Holds run.stringRange location → Holds line.1 location)
    (frames : view.columns.map CTColumnView.ctframe = columns)
    (all : attachments view =
      (rounds glyphRuns runHolds (opensLine coreText) (textLines columns) images).map placedAt) :
    AttachedOnce view image picture ↔
      ∃ line run, (rounds glyphRuns runHolds (opensLine coreText) (textLines columns) images).filter
        (fun served => served.item = image) = [⟨line, run, picture, image⟩] := by
  have filtered : (attachments view).filter (fun placed => placed.2.record = image) =
      ((rounds glyphRuns runHolds (opensLine coreText) (textLines columns) images).filter
        (fun served => served.item = image)).map placedAt := by
    rw [all, List.filter_map]
    rfl
  constructor
  · rintro ⟨column, _, line, _, run, _, _, _, once⟩
    obtain ⟨served, alone, same⟩ := List.map_eq_singleton_iff.mp (filtered ▸ once)
    have token : served.token = picture := congrArg (fun placed => placed.2.image) same
    have item : served.item = image := congrArg (fun placed => placed.2.record) same
    exact ⟨served.group, served.desk, by rw [alone, ← token, ← item]⟩
  · rintro ⟨line, run, alone⟩
    have member := (List.mem_filter.mp (alone ▸ List.mem_cons_self)).1
    obtain ⟨line_in, run_in, held⟩ := rounds_sound glyphRuns runHolds (opensLine coreText) _ _ _ member
    have holds := (run_holds_iff run image).mp held
    obtain ⟨frame, frame_in, placed⟩ := List.mem_flatMap.mp line_in
    obtain ⟨origin_line, origin_in, rfl⟩ := List.mem_map.mp placed
    obtain ⟨column, column_in, rfl⟩ := List.mem_map.mp (frames ▸ frame_in)
    refine ⟨column, column_in, origin_line, origin_in, run, run_in,
      ranges _ line_in run run_in image.location holds, holds, ?_⟩
    rw [filtered, alone]
    rfl

section Illustrated

-- One column of two lines, each a run of one unit, and some of the files.
def twoLines : CTFrame :=
  ⟨[(⟨[⟨⟨0, 1⟩, 10, 10⟩], fun _ => 0⟩, ⟨0, 20⟩), (⟨[⟨⟨1, 1⟩, 10, 10⟩], fun _ => 0⟩, ⟨0, 0⟩)], ⟨0, 2⟩⟩

def illustrated (files : List (List Char)) : CoreText Unit Unit (List Char) where
  createFrame := fun _ _ _ => twoLines
  imageNamed := fun name => if name ∈ files then some name else none
  screen := ⟨⟨0, 0, 320, 480⟩, true⟩

def twoUnits : List (Run Unit Unit) := [⟨"  ".toList, .text () ()⟩]

def firstImage : ImageRecord := ⟨10, 10, "a.png".toList, 0⟩

def secondImage : ImageRecord := ⟨10, 10, "b.png".toList, 1⟩

theorem illustrated_paginates (files : List (List Char)) :
    Paginates (frameFrom (illustrated files) twoUnits) (attributedLength twoUnits) 0 [twoLines] := by
  refine .column 0 [] (by decide) rfl Nat.zero_lt_two ?_ .done
  refine .cons 0 1 2 _ _ (by decide) (single_run_divided _ _ 0 1 rfl ⟨rfl, rfl⟩) ?_
  exact .cons 1 2 2 _ _ (by decide) (single_run_divided _ _ 1 2 rfl ⟨rfl, rfl⟩) (.nil 2)

end Illustrated

-- Every image with a file is attached once, to its own column, with its own
-- picture and bounds, if and only if the files and the lines of the images
-- before it let the index reach it while its own picture is loaded.
theorem image_placement_iff {Color Font Picture : Type} (coreText : CoreText Color Font Picture) (bounds : CGRect)
    (attribu : List (Run Color Font)) (images : List ImageRecord) (columns : List CTFrame)
    (paginated : Paginates (frameFrom coreText attribu) (attributedLength attribu) 0 columns)
    (increasing : images.Pairwise fun first second => first.location < second.location)
    (inside : ∀ image ∈ images, image.location < attributedLength attribu) :
    PlacesImages coreText bounds attribu images ↔ Placeable coreText columns images := by
  have fills := paginates_fills _ _ _ _ paginated
  have apart := fills_apart 0 _ (textLines columns) fills
  have orderly : Orderly glyphRuns runHolds (textLines columns) images :=
    increasing.imp fun less => line_order 0 _ _ fills _ _ (Nat.zero_le _) (Nat.le_of_lt less)
  have distinct : images.Nodup := increasing.imp fun {first second} less same => by
    rw [same] at less
    exact Nat.lt_irrefl _ less
  have located : ∀ image ∈ images, ∃ run ∈ (textLines columns).flatMap glyphRuns, runHolds run image = true := by
    intro image member
    obtain ⟨run, run_in, holds⟩ := fills_covers 0 _ _ fills image.location (Nat.zero_le _) (inside image member)
    exact ⟨run, run_in, (run_holds_iff run image).mpr holds⟩
  obtain ⟨final, shown, built, added, frames, all⟩ := build_columns_placed coreText bounds attribu images 0 columns
    paginated apart (attributedLength attribu) ⟨0, 0, 0, 0, []⟩ (by omega) (.inr rfl) rfl
  obtain rfl : final.columns = shown := added
  let view : CTView Picture := ⟨final.pages, ⟨final.pageIndex * bounds.width, bounds.height⟩⟩
  have view_built : buidFrames coreText bounds attribu images = some view := by
    rw [buidFrames, built]
    rfl
  have once : ∀ before image after picture, images = before ++ image :: after →
      (AttachedOnce view image picture ↔
        (before ++ [image]).Pairwise (fun first second => runOf columns first < runOf columns second) ∧
        (∀ other ∈ before ++ [image], (linePicture coreText columns images other).isSome) ∧
        linePicture coreText columns images image = some picture) := by
    intro before image after picture parts
    refine (attached_once_iff coreText columns images view image picture
      (column_range _ _ _ _ paginated) frames all).trans ?_
    rw [parts] at orderly distinct ⊢
    refine served_iff (opensLine coreText) (textLines columns) before after image picture apart orderly distinct
      fun other early => located other ?_
    rw [parts, List.append_cons]
    exact List.mem_append_left after early
  constructor
  · rintro ⟨other, other_built, attached⟩ before image after picture parts named
    obtain rfl := Option.some.inj (view_built.symm.trans other_built)
    have member : image ∈ images := parts ▸ List.mem_append_right before List.mem_cons_self
    exact (once before image after picture parts).mp (attached image member picture named)
  · intro placeable
    refine ⟨view, view_built, fun image member picture named => ?_⟩
    obtain ⟨before, after, parts⟩ := List.append_of_mem member
    exact (once before image after picture parts).mpr (placeable before image after picture parts named)

theorem two_images_placed :
    PlacesImages (illustrated ["a.png".toList, "b.png".toList]) ⟨0, 0, 320, 480⟩ twoUnits
      [firstImage, secondImage] := by
  refine (image_placement_iff _ _ _ _ [twoLines] (illustrated_paginates _) (by decide) (by decide)).mpr ?_
  intro before image after picture parts named
  cases before with
  | nil =>
      cases parts
      cases named
      exact ⟨by decide, by decide, by decide⟩
  | cons earlier before =>
      cases before with
      | nil =>
          cases parts
          cases named
          exact ⟨by decide, by decide, by decide⟩
      | cons other before =>
          have length := congrArg List.length parts
          simp at length

-- The first file is missing, and so the second image is never attached.
theorem missing_file_hides_next :
    Paginates (frameFrom (illustrated ["b.png".toList]) twoUnits) (attributedLength twoUnits) 0 [twoLines] ∧
      [firstImage, secondImage].Pairwise (fun first second => first.location < second.location) ∧
      (∀ image ∈ [firstImage, secondImage], image.location < attributedLength twoUnits) ∧
      ¬ PlacesImages (illustrated ["b.png".toList]) ⟨0, 0, 320, 480⟩ twoUnits [firstImage, secondImage] := by
  refine ⟨illustrated_paginates _, by decide, by decide, ?_⟩
  rintro ⟨view, built, all⟩
  have shown : (buidFrames (illustrated ["b.png".toList]) ⟨0, 0, 320, 480⟩ twoUnits [firstImage, secondImage]).map
      (fun view => (attachments view).length) = some 0 := by decide +kernel
  rw [built] at shown
  have none_shown := List.eq_nil_of_length_eq_zero (Option.some.inj shown)
  obtain ⟨_, _, _, _, _, _, _, _, once⟩ := all secondImage (by decide) "b.png".toList (by decide)
  rw [none_shown] at once
  cases once

end CultivationMotain.CoreTextMagazine

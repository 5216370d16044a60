import CultivationMotain.CoreTextMagazine.MarkupParse

set_option autoImplicit false

namespace CultivationMotain.CoreTextMagazine

open Foundation

abbrev CFRange := NSRange

def truncatingRemainder (x y : CGFloat) : CGFloat := x - y * ((x / y).num.tdiv (x / y).den : Int)

structure CTRun where
  stringRange : CFRange
  typographicWidth : CGFloat
  ascent : CGFloat

structure CTLine where
  glyphRuns : List CTRun
  offsetForStringIndex : Nat → CGFloat

-- The lines are paired with their origins.
structure CTFrame where
  lines : List (CTLine × CGPoint)
  visibleStringRange : CFRange

-- What the view takes from the system. A frame that is created for a range of
-- no length takes as much of the text as the path has room for.
structure CoreText (Color Font Picture : Type) where
  createFrame : List (Run Color Font) → CFRange → CGRect → CTFrame
  imageNamed : List Char → Option Picture
  screen : Screen

-- The view keeps the picture and its frame. The record is the one the loop was
-- at when it attached them.
structure Attachment (Picture : Type) where
  image : Picture
  frame : CGRect
  record : ImageRecord
deriving DecidableEq

structure CTColumnView (Picture : Type) where
  frame : CGRect
  ctframe : CTFrame
  images : List (Attachment Picture)

structure PageView (Picture : Type) where
  frame : CGRect
  columns : List (CTColumnView Picture)

structure CTView (Picture : Type) where
  pages : List (PageView Picture)
  contentSize : CGSize

variable {Color Font Picture : Type} (coreText : CoreText Color Font Picture)

def CTView.columns (view : CTView Picture) : List (CTColumnView Picture) := view.pages.flatMap PageView.columns

def attributedLength (attribu : List (Run Color Font)) : Nat := utf16Count (attribu.flatMap Run.string)

section Attaching

structure ImageWalk (Picture : Type) where
  imageIndex : Nat
  nextImage : ImageRecord
  imgLocation : Nat
  images : List (Attachment Picture)

def imageBounds (line : CTLine × CGPoint) (run : CTRun) : CGRect :=
  ⟨line.2.x + line.1.offsetForStringIndex run.stringRange.location, line.2.y, run.typographicWidth, run.ascent⟩

def visitRun (images : List ImageRecord) (line : CTLine × CGPoint) (img : Picture) (walk : ImageWalk Picture)
    (run : CTRun) : ImageWalk Picture :=
  let runRange := run.stringRange
  if runRange.location > walk.imgLocation ∨ runRange.location + runRange.length ≤ walk.imgLocation then walk
  else
    let attached := { walk with
      images := walk.images ++ [⟨img, imageBounds line run, walk.nextImage⟩]
      imageIndex := walk.imageIndex + 1 }
    match images[walk.imageIndex + 1]? with
    | none => attached
    | some nextImage => { attached with nextImage := nextImage, imgLocation := nextImage.location }

-- The picture is looked up once a line.
def visitLine (images : List ImageRecord) (walk : ImageWalk Picture) (line : CTLine × CGPoint) : ImageWalk Picture :=
  match coreText.imageNamed walk.nextImage.filename with
  | none => walk
  | some img => line.1.glyphRuns.foldl (visitRun images line img) walk

def attachImagesWithFrane (images : List ImageRecord) (cftframe : CTFrame) (imageIndex : Nat)
    (present : images.length > imageIndex) : ImageWalk Picture :=
  let nextImage := images[imageIndex]
  cftframe.lines.foldl (visitLine coreText images) ⟨imageIndex, nextImage, nextImage.location, []⟩

end Attaching

section Building

structure Build (Picture : Type) where
  imageIndex : Nat
  textPos : Nat
  columIndex : CGFloat
  pageIndex : CGFloat
  pages : List (PageView Picture)

def startPage (settings : CTSettings) (bounds : CGRect) (build : Build Picture) : Build Picture :=
  if truncatingRemainder build.columIndex settings.columnsPerPage = 0 then
    { build with
      columIndex := 0
      pages := build.pages ++ [⟨settings.pageRect.offsetBy (build.pageIndex * bounds.width) 0, []⟩]
      pageIndex := build.pageIndex + 1 }
  else build

-- The page view is the last one added. Before that it is empty and not shown.
def pageWidth (pages : List (PageView Picture)) : CGFloat :=
  match pages.getLast? with
  | none => 0
  | some pageView => pageView.frame.width

def addColumn (pages : List (PageView Picture)) (columView : CTColumnView Picture) : List (PageView Picture) :=
  match pages.getLast? with
  | none => pages
  | some pageView => pages.dropLast ++ [{ pageView with columns := pageView.columns ++ [columView] }]

def columnPath (settings : CTSettings) : CGRect := ⟨0, 0, settings.columnRect.width, settings.columnRect.height⟩

def buildColumn (settings : CTSettings) (bounds : CGRect) (attribu : List (Run Color Font))
    (images : List ImageRecord) (before : Build Picture) : Build Picture :=
  let build := startPage settings bounds before
  let columnXOri := pageWidth build.pages / settings.columnsPerPage
  let columnFrame := settings.columnRect.offsetBy (build.columIndex * columnXOri) 0
  let ctframe := coreText.createFrame attribu ⟨build.textPos, 0⟩ (columnPath settings)
  let (attached, imageIndex) :=
    if present : images.length > build.imageIndex then
      let walk := attachImagesWithFrane coreText images ctframe build.imageIndex present
      (walk.images, walk.imageIndex)
    else ([], build.imageIndex)
  { imageIndex := imageIndex
    textPos := build.textPos + ctframe.visibleStringRange.length
    columIndex := build.columIndex + 1
    pageIndex := build.pageIndex
    pages := addColumn build.pages ⟨columnFrame, ctframe, attached⟩ }

-- none is a loop that has not ended after that many turns.
def buildColumns (settings : CTSettings) (bounds : CGRect) (attribu : List (Run Color Font))
    (images : List ImageRecord) : Nat → Build Picture → Option (Build Picture)
  | 0, build => if build.textPos < attributedLength attribu then none else some build
  | turns + 1, build =>
      if build.textPos < attributedLength attribu then
        buildColumns settings bounds attribu images turns (buildColumn coreText settings bounds attribu images build)
      else some build

-- A turn that takes none of the text is repeated for ever, so that one turn
-- for each of the text's units is enough for every loop that ends.
def buidFrames (bounds : CGRect) (attribu : List (Run Color Font)) (images : List ImageRecord) :
    Option (CTView Picture) :=
  (buildColumns coreText (CTSettings.init coreText.screen) bounds attribu images (attributedLength attribu)
    ⟨0, 0, 0, 0, []⟩).map fun build => ⟨build.pages, ⟨build.pageIndex * bounds.width, bounds.height⟩⟩

end Building

end CultivationMotain.CoreTextMagazine

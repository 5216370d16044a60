import CultivationMotain.Foundation.Geometry
import Mathlib.Algebra.Order.Field.Rat
import Mathlib.Data.List.Basic
import Mathlib.Tactic.FieldSimp
import Mathlib.Tactic.Linarith
import Mathlib.Tactic.Ring

set_option autoImplicit false

namespace CultivationMotain.Flo

open Foundation

structure GraphView where
  graphPoints : List Int
  bounds : CGRect
deriving DecidableEq, Repr

-- The paths by their points, the lines by their ends.
structure Drawing where
  linePath : List CGPoint
  clipPath : List CGPoint
  startPoint : CGPoint
  endPoint : CGPoint
  ovals : List CGRect
  lines : List (CGPoint × CGPoint)
deriving DecidableEq, Repr

def margin : CGFloat := 20

def topBorder : CGFloat := 60

def bottomBorder : CGFloat := 50

def graphHeight (rect : CGRect) : CGFloat := rect.height - topBorder - bottomBorder

-- A division by zero has no value.
def divide (dividend divisor : CGFloat) : Option CGFloat := if divisor = 0 then none else some (dividend / divisor)

def oval (point : CGPoint) : CGRect := ⟨point.x - 5 / 2, point.y - 5 / 2, 5, 5⟩

variable (view : GraphView) (rect : CGRect)

def columnXpoint (column : Nat) : Option CGFloat := do
  let spacer ← divide (rect.width - margin * 2 - 4) (view.graphPoints.length - 1)
  some (column * spacer + (margin + 2))

-- None is also the trap of an empty list.
def columnYPoint (graphPoint : Int) : Option CGFloat := do
  let maxValue ← view.graphPoints.max?
  let y ← divide graphPoint maxValue
  some (graphHeight rect + topBorder - y * graphHeight rect)

def columnPoint (column : Nat) : Option CGPoint := do
  let x ← columnXpoint view rect column
  let graphPoint ← view.graphPoints[column]?
  let y ← columnYPoint view rect graphPoint
  some ⟨x, y⟩

def drawRect : Option Drawing := do
  let count := view.graphPoints.length
  let start ← columnPoint view rect 0
  let nextPoints ← (List.range' 1 (count - 1)).mapM (columnPoint view rect)
  let linePath := start :: nextPoints
  let lastX ← columnXpoint view rect (count - 1)
  let firstX ← columnXpoint view rect 0
  let maxValue ← view.graphPoints.max?
  let hightYPoint ← columnYPoint view rect maxValue
  let points ← (List.range count).mapM (columnPoint view rect)
  some {
    linePath := linePath
    clipPath := linePath ++ [⟨lastX, rect.height⟩, ⟨firstX, rect.height⟩]
    startPoint := ⟨margin, hightYPoint⟩
    endPoint := ⟨margin, view.bounds.height⟩
    ovals := points.map oval
    lines := [(⟨margin, topBorder⟩, ⟨rect.width - margin, topBorder⟩),
      (⟨margin, graphHeight rect / 2 + topBorder⟩, ⟨rect.width - margin, graphHeight rect / 2 + topBorder⟩),
      (⟨margin, rect.height - bottomBorder⟩, ⟨rect.width - margin, rect.height - bottomBorder⟩)] }

structure PlottedRight (drawing : Drawing) : Prop where
  points : drawing.linePath.length = view.graphPoints.length
  circles : drawing.ovals = drawing.linePath.map oval
  across : ∀ point ∈ drawing.linePath, margin + 2 ≤ point.x ∧ point.x ≤ rect.width - (margin + 2)
  increasing : drawing.linePath.Pairwise fun first second => first.x < second.x
  down : ∀ point ∈ drawing.linePath, topBorder ≤ point.y ∧ point.y ≤ rect.height - bottomBorder
  order : ∀ (i j : Nat) (one other : Int) (first second : CGPoint), view.graphPoints[i]? = some one →
    view.graphPoints[j]? = some other → drawing.linePath[i]? = some first → drawing.linePath[j]? = some second →
      one < other → second.y ≤ first.y
  top : ∀ (i : Nat) (highest : Int) (point : CGPoint), view.graphPoints[i]? = some highest →
    drawing.linePath[i]? = some point → (∀ other ∈ view.graphPoints, other ≤ highest) → 0 < highest →
      point.y = topBorder

-- Both scales divide by a number other than zero.
structure Scalable : Prop where
  several : 2 ≤ view.graphPoints.length
  positive : ∃ count ∈ view.graphPoints, 0 < count

def spacer : CGFloat := (rect.width - margin * 2 - 4) / (view.graphPoints.length - 1)

def scaledPoint (highest : Int) (entry : Int × Nat) : CGPoint :=
  ⟨entry.2 * spacer view rect + (margin + 2), graphHeight rect + topBorder - entry.1 / highest * graphHeight rect⟩

def plotted (highest : Int) : List CGPoint := view.graphPoints.zipIdx.map (scaledPoint view rect highest)

theorem map_m_get {α : Type} (items : List α) (start count : Nat) (inside : start + count ≤ items.length) :
    (List.range' start count).mapM (fun i => items[i]?) = some ((items.drop start).take count) := by
  induction count generalizing start with
  | zero => simp
  | succ count ih =>
      have here : start < items.length := by omega
      rw [List.range'_succ, List.mapM_cons, List.getElem?_eq_getElem here, ih (start + 1) (by omega),
        List.drop_eq_getElem_cons here, List.take_succ_cons]
      rfl

theorem divide_some (dividend divisor : CGFloat) (nonzero : divisor ≠ 0) :
    divide dividend divisor = some (dividend / divisor) := if_neg nonzero

theorem divided_nonzero (dividend divisor value : CGFloat) (divided : divide dividend divisor = some value) :
    divisor ≠ 0 := by
  intro zero
  rw [divide, if_pos zero] at divided
  cases divided

theorem gaps_nonzero (several : 2 ≤ view.graphPoints.length) : (view.graphPoints.length - 1 : CGFloat) ≠ 0 := by
  have more : (2 : CGFloat) ≤ view.graphPoints.length := by exact_mod_cast several
  linarith

theorem column_point_plotted (several : 2 ≤ view.graphPoints.length) (highest : Int)
    (maximum : view.graphPoints.max? = some highest) (nonzero : highest ≠ 0) (column : Nat) :
    columnPoint view rect column = (plotted view rect highest)[column]? := by
  have scale : (highest : CGFloat) ≠ 0 := Int.cast_ne_zero.mpr nonzero
  have x : columnXpoint view rect column = some (column * spacer view rect + (margin + 2)) := by
    rw [columnXpoint, divide_some _ _ (gaps_nonzero view several)]
    rfl
  rw [columnPoint, x, plotted, List.getElem?_map, List.getElem?_zipIdx]
  cases found : view.graphPoints[column]? with
  | none => rfl
  | some graphPoint =>
      simp only [columnYPoint, maximum, divide_some _ _ scale, Option.bind_eq_bind, Option.bind_some,
        Option.map_some, scaledPoint, Nat.zero_add]

theorem draw_rect_plotted (several : 2 ≤ view.graphPoints.length) (highest : Int)
    (maximum : view.graphPoints.max? = some highest) (nonzero : highest ≠ 0) :
    ∃ drawing, drawRect view rect = some drawing ∧ drawing.linePath = plotted view rect highest ∧
      drawing.ovals = (plotted view rect highest).map oval := by
  have scale : (highest : CGFloat) ≠ 0 := Int.cast_ne_zero.mpr nonzero
  have length : (plotted view rect highest).length = view.graphPoints.length := by simp [plotted]
  have column := funext (column_point_plotted view rect several highest maximum nonzero)
  have start : 0 < (plotted view rect highest).length := by omega
  have next := map_m_get (plotted view rect highest) 1 (view.graphPoints.length - 1) (by omega)
  have all := map_m_get (plotted view rect highest) 0 view.graphPoints.length (by omega)
  rw [List.drop_one, List.take_of_length_le (by rw [List.length_tail, length])] at next
  rw [List.drop_zero, List.take_of_length_le length.le, ← List.range_eq_range'] at all
  have whole : (plotted view rect highest)[0] :: (plotted view rect highest).tail = plotted view rect highest := by
    rw [← List.head_eq_getElem_zero (List.ne_nil_of_length_pos start), List.cons_head_tail]
  simp only [drawRect, column, next, all, List.getElem?_eq_getElem start, columnXpoint, columnYPoint, maximum,
    divide_some _ _ (gaps_nonzero view several), divide_some _ _ scale, Option.bind_eq_bind, Option.bind_some, whole]
  exact ⟨_, rfl, rfl, rfl⟩

theorem drawn_scalable (nonneg : ∀ count ∈ view.graphPoints, 0 ≤ count) (drawing : Drawing)
    (drawn : drawRect view rect = some drawing) : Scalable view := by
  obtain ⟨point, started, -⟩ := Option.bind_eq_some_iff.mp drawn
  obtain ⟨x, across, first⟩ := Option.bind_eq_some_iff.mp started
  obtain ⟨gap, gapped, -⟩ := Option.bind_eq_some_iff.mp across
  obtain ⟨graphPoint, found, down⟩ := Option.bind_eq_some_iff.mp first
  obtain ⟨y, scaled, -⟩ := Option.bind_eq_some_iff.mp down
  obtain ⟨highest, maximum, ratio⟩ := Option.bind_eq_some_iff.mp scaled
  obtain ⟨quotient, divided, -⟩ := Option.bind_eq_some_iff.mp ratio
  have gaps := divided_nonzero _ _ _ gapped
  have scale : highest ≠ 0 := Int.cast_ne_zero.mp (divided_nonzero _ _ _ divided)
  have present := (List.getElem?_eq_some_iff.mp found).1
  have listed := List.max?_mem maximum
  refine ⟨?_, highest, listed, lt_of_le_of_ne (nonneg highest listed) scale.symm⟩
  have single : view.graphPoints.length ≠ 1 := fun one => gaps (by rw [one]; norm_num)
  omega

theorem spacer_positive (wide : 44 < rect.width) (several : 2 ≤ view.graphPoints.length) : 0 < spacer view rect := by
  have more : (2 : CGFloat) ≤ view.graphPoints.length := by exact_mod_cast several
  have room : 0 < rect.width - margin * 2 - 4 := by
    rw [margin]
    linarith
  exact div_pos room (by linarith)

-- The gaps between the columns fill the width between the margins.
theorem spacers_fill (several : 2 ≤ view.graphPoints.length) :
    (view.graphPoints.length - 1) * spacer view rect = rect.width - margin * 2 - 4 :=
  mul_div_cancel₀ _ (gaps_nonzero view several)

theorem plotted_get (highest : Int) (i : Nat) (point : CGPoint) :
    (plotted view rect highest)[i]? = some point ↔
      ∃ graphPoint, view.graphPoints[i]? = some graphPoint ∧ scaledPoint view rect highest (graphPoint, i) = point := by
  rw [plotted, List.getElem?_map, List.getElem?_zipIdx, Nat.zero_add, Option.map_map, Option.map_eq_some_iff]
  rfl

theorem scaled_across (wide : 44 < rect.width) (several : 2 ≤ view.graphPoints.length) (highest graphPoint : Int)
    (i : Nat) (inside : i < view.graphPoints.length) :
    margin + 2 ≤ (scaledPoint view rect highest (graphPoint, i)).x ∧
      (scaledPoint view rect highest (graphPoint, i)).x ≤ rect.width - (margin + 2) := by
  have positive := spacer_positive view rect wide several
  have fill := spacers_fill view rect several
  have least : 0 ≤ (i : CGFloat) * spacer view rect := mul_nonneg (Nat.cast_nonneg i) positive.le
  have before : (i : CGFloat) ≤ view.graphPoints.length - 1 := by
    have next : ((i + 1 : Nat) : CGFloat) ≤ view.graphPoints.length := Nat.cast_le.mpr inside
    rw [Nat.cast_add, Nat.cast_one] at next
    linarith
  have most := mul_le_mul_of_nonneg_right before positive.le
  rw [fill] at most
  simp only [scaledPoint, margin] at most ⊢
  constructor <;> linarith

theorem graph_height_positive (tall : 110 < rect.height) : 0 < graphHeight rect := by
  rw [graphHeight, topBorder, bottomBorder]
  linarith

theorem scaled_down (tall : 110 < rect.height) (highest graphPoint : Int) (positive : 0 < highest)
    (nonneg : 0 ≤ graphPoint) (most : graphPoint ≤ highest) (i : Nat) :
    topBorder ≤ (scaledPoint view rect highest (graphPoint, i)).y ∧
      (scaledPoint view rect highest (graphPoint, i)).y ≤ rect.height - bottomBorder := by
  have height := graph_height_positive rect tall
  have scale : (0 : CGFloat) < highest := Int.cast_pos.mpr positive
  have least : (0 : CGFloat) ≤ graphPoint / highest := div_nonneg (Int.cast_nonneg nonneg) scale.le
  have whole : (graphPoint / highest : CGFloat) ≤ 1 := (div_le_one₀ scale).mpr (Int.cast_le.mpr most)
  have up := mul_nonneg least height.le
  have down := mul_le_mul_of_nonneg_right whole height.le
  have room : graphHeight rect + topBorder = rect.height - bottomBorder := by
    rw [graphHeight]
    ring
  simp only [scaledPoint]
  constructor <;> linarith

theorem scaled_order (tall : 110 < rect.height) (highest one other : Int) (positive : 0 < highest) (less : one ≤ other)
    (i j : Nat) :
    (scaledPoint view rect highest (other, j)).y ≤ (scaledPoint view rect highest (one, i)).y := by
  have height := graph_height_positive rect tall
  have scale : (0 : CGFloat) < highest := Int.cast_pos.mpr positive
  have ratio : (one / highest : CGFloat) ≤ other / highest := by
    gcongr
  have scaled := mul_le_mul_of_nonneg_right ratio height.le
  simp only [scaledPoint]
  linarith

theorem scaled_increasing (wide : 44 < rect.width) (several : 2 ≤ view.graphPoints.length) (highest one other : Int)
    (i j : Nat) (less : i < j) :
    (scaledPoint view rect highest (one, i)).x < (scaledPoint view rect highest (other, j)).x := by
  have columns : (i : CGFloat) < j := Nat.cast_lt.mpr less
  have apart := mul_lt_mul_of_pos_right columns (spacer_positive view rect wide several)
  simp only [scaledPoint]
  linarith

theorem scaled_top (highest : Int) (nonzero : highest ≠ 0) (i : Nat) :
    (scaledPoint view rect highest (highest, i)).y = topBorder := by
  have scale : (highest : CGFloat) ≠ 0 := Int.cast_ne_zero.mpr nonzero
  simp only [scaledPoint, div_self scale, one_mul, add_sub_cancel_left]

theorem plotted_right (wide : 44 < rect.width) (tall : 110 < rect.height) (several : 2 ≤ view.graphPoints.length)
    (nonneg : ∀ count ∈ view.graphPoints, 0 ≤ count) (highest : Int)
    (maximum : view.graphPoints.max? = some highest) (positive : 0 < highest) (drawing : Drawing)
    (line : drawing.linePath = plotted view rect highest)
    (circles : drawing.ovals = (plotted view rect highest).map oval) : PlottedRight view rect drawing := by
  obtain ⟨listed, most⟩ := List.max?_eq_some_iff.mp maximum
  have members : ∀ point ∈ drawing.linePath, ∃ graphPoint i, graphPoint ∈ view.graphPoints ∧
      i < view.graphPoints.length ∧ scaledPoint view rect highest (graphPoint, i) = point := by
    intro point member
    rw [line] at member
    obtain ⟨i, found⟩ := List.mem_iff_getElem?.mp member
    obtain ⟨graphPoint, here, same⟩ := (plotted_get view rect highest i point).mp found
    exact ⟨graphPoint, i, List.mem_of_getElem? here, (List.getElem?_eq_some_iff.mp here).1, same⟩
  refine {
    points := by rw [line, plotted, List.length_map, List.length_zipIdx]
    circles := by rw [circles, line]
    across := ?_
    increasing := ?_
    down := ?_
    order := ?_
    top := ?_ }
  · intro point member
    obtain ⟨graphPoint, i, -, inside, rfl⟩ := members point member
    exact scaled_across view rect wide several highest graphPoint i inside
  · rw [line, List.pairwise_iff_getElem]
    intro i j insideI insideJ less
    obtain ⟨_, -, first⟩ := (plotted_get view rect highest i _).mp (List.getElem?_eq_getElem insideI)
    obtain ⟨_, -, second⟩ := (plotted_get view rect highest j _).mp (List.getElem?_eq_getElem insideJ)
    rw [← first, ← second]
    exact scaled_increasing view rect wide several highest _ _ i j less
  · intro point member
    obtain ⟨graphPoint, i, here, -, rfl⟩ := members point member
    exact scaled_down view rect tall highest graphPoint positive (nonneg graphPoint here) (most graphPoint here) i
  · intro i j one other first second here there atFirst atSecond less
    rw [line] at atFirst atSecond
    obtain ⟨_, here', rfl⟩ := (plotted_get view rect highest i first).mp atFirst
    obtain ⟨_, there', rfl⟩ := (plotted_get view rect highest j second).mp atSecond
    cases here.symm.trans here'
    cases there.symm.trans there'
    exact scaled_order view rect tall highest one other positive less.le i j
  · intro i greatest point here at_ above great
    rw [line] at at_
    obtain ⟨_, here', rfl⟩ := (plotted_get view rect highest i point).mp at_
    cases here.symm.trans here'
    have same := le_antisymm (most greatest (List.mem_of_getElem? here)) (above highest listed)
    rw [same]
    exact scaled_top view rect highest positive.ne' i

theorem drawn_right (wide : 44 < rect.width) (tall : 110 < rect.height)
    (nonneg : ∀ count ∈ view.graphPoints, 0 ≤ count) (scalable : Scalable view) :
    ∃ drawing, drawRect view rect = some drawing ∧ PlottedRight view rect drawing := by
  obtain ⟨several, count, listed, positive⟩ := scalable
  obtain ⟨highest, maximum⟩ : ∃ highest, view.graphPoints.max? = some highest :=
    Option.isSome_iff_exists.mp (List.isSome_max?_of_mem listed)
  have above := lt_of_lt_of_le positive ((List.max?_eq_some_iff.mp maximum).2 count listed)
  obtain ⟨drawing, drawn, line, circles⟩ := draw_rect_plotted view rect several highest maximum above.ne'
  exact ⟨drawing, drawn, plotted_right view rect wide tall several nonneg highest maximum above drawing line circles⟩

theorem graph_plotted_iff (wide : 44 < rect.width) (tall : 110 < rect.height)
    (nonneg : ∀ count ∈ view.graphPoints, 0 ≤ count) :
    (∃ drawing, drawRect view rect = some drawing ∧ PlottedRight view rect drawing) ↔ Scalable view := by
  constructor
  · intro ⟨drawing, drawn, _⟩
    exact drawn_scalable view rect nonneg drawing drawn
  · exact drawn_right view rect wide tall nonneg

theorem week_plotted :
    ∃ drawing, drawRect ⟨[4, 2, 6, 4, 5, 8, 3], ⟨0, 0, 300, 250⟩⟩ ⟨0, 0, 300, 250⟩ = some drawing ∧
      PlottedRight ⟨[4, 2, 6, 4, 5, 8, 3], ⟨0, 0, 300, 250⟩⟩ ⟨0, 0, 300, 250⟩ drawing :=
  (graph_plotted_iff ⟨[4, 2, 6, 4, 5, 8, 3], ⟨0, 0, 300, 250⟩⟩ ⟨0, 0, 300, 250⟩ (by decide) (by decide)
    (by decide)).mpr ⟨by decide, by decide⟩

-- One day has no gap to divide the width by.
theorem one_day_divides_by_zero :
    ¬ ∀ (counts : List Int) (rect : CGRect), counts ≠ [] → (∀ count ∈ counts, 0 ≤ count) → 44 < rect.width →
      110 < rect.height → ∃ drawing, drawRect ⟨counts, rect⟩ rect = some drawing ∧
        PlottedRight ⟨counts, rect⟩ rect drawing := by
  intro all
  obtain ⟨drawing, drawn, -⟩ := all [5] ⟨0, 0, 300, 250⟩ (by decide) (by decide) (by decide) (by decide)
  have scalable := drawn_scalable ⟨[5], ⟨0, 0, 300, 250⟩⟩ ⟨0, 0, 300, 250⟩ (by decide) drawing drawn
  exact absurd scalable.several (by decide)

end CultivationMotain.Flo

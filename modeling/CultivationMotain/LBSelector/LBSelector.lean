import CultivationMotain.Foundation.Geometry
import Mathlib.Algebra.Order.Field.Rat
import Mathlib.Tactic.FieldSimp
import Mathlib.Tactic.Ring

set_option autoImplicit false

namespace CultivationMotain.LBSelector

open Foundation

-- The entries of a dictionary, a title with the titles of its items.
abbrev NSDictionary := List (String × List String)

def allKeys (dictionary : NSDictionary) : List String := dictionary.map Prod.fst

def allValues (dictionary : NSDictionary) : List (List String) := dictionary.map Prod.snd

structure TitleButton where
  title : Option String
  tag : Nat
  width : CGFloat
  leading : CGFloat
deriving DecidableEq, Repr

-- A line is at the trailing edge of the button with that tag.
inductive BarSubview where
  | button (button : TitleButton)
  | line (tag : Nat) (width : CGFloat)
deriving DecidableEq, Repr

-- Items are named by their places. One is constrained to the trailing edge of
-- an item, or to the leading edge of the view; to the bottom of an item, or to
-- the top of the view, where it is constrained at its top at all.
structure ItemButton where
  title : String
  leading : Option Nat
  top : Option (Option Nat)
  trailing : Bool
  bottom : Bool
deriving DecidableEq, Repr

-- extended says whether the extend view is in the superview, with its cover.
structure Selector where
  array : List NSDictionary
  subviews : List BarSubview
  extendView : List ItemButton
  extended : Bool
deriving DecidableEq, Repr

variable (screenWidth : CGFloat)

def lineWidth : CGFloat := 1 / 2

def titleWidth (count : Nat) : CGFloat := (screenWidth - (count - 1) * lineWidth) / count

def titleButton (count : Nat) (dictionary : NSDictionary) (idx : Nat) : TitleButton :=
  ⟨(allKeys dictionary).head?, idx + 10, titleWidth screenWidth count,
    titleWidth screenWidth count * idx + idx * lineWidth⟩

def addTitle (count : Nat) (subviews : List BarSubview) (entry : NSDictionary × Nat) : List BarSubview :=
  let button := titleButton screenWidth count entry.1 entry.2
  subviews ++ [.button button, .line button.tag lineWidth]

def createSelectorWithArray (selector : Selector) (array : Option (List NSDictionary)) : Selector :=
  match array with
  | none => selector
  | some array =>
      { selector with
        array := array
        subviews := array.zipIdx.foldl (addTitle screenWidth array.length) selector.subviews }

def initWithArray (array : Option (List NSDictionary)) : Selector :=
  createSelectorWithArray screenWidth ⟨[], [], [], false⟩ array

-- The two reference buttons, across and down, are places of items.
structure Placing where
  items : List ItemButton
  refrenceButton1 : Option Nat
  refrenceButton2 : Option Nat
deriving DecidableEq, Repr

def addItem (count : Nat) (placing : Placing) (entry : String × Nat) : Placing :=
  let (title, idx) := entry
  let rowStarts : Bool := idx % 4 = 0
  let rowEnds : Bool := (idx + 1) % 4 = 0
  { items := placing.items ++
      [⟨title, placing.refrenceButton1, if rowStarts then some placing.refrenceButton2 else none, rowEnds,
        idx + 1 = count⟩]
    refrenceButton1 := if rowEnds then none else some idx
    refrenceButton2 := if rowStarts then some idx else placing.refrenceButton2 }

def itemButtons (titles : List String) : List ItemButton :=
  (titles.zipIdx.foldl (addItem titles.length) ⟨[], none, none⟩).items

def showSubSelector (selector : Selector) (button : TitleButton) : Selector :=
  let cleared := { selector with extendView := [] }
  let index := button.tag % 10
  match selector.array[index]? with
  | none => cleared
  | some dic => { cleared with extendView := itemButtons ((allValues dic).head?.getD []), extended := true }

def BarSubview.title? : BarSubview → Option TitleButton
  | .button titled => some titled
  | .line _ _ => none

def titleButtons (selector : Selector) : List TitleButton := selector.subviews.filterMap BarSubview.title?

-- Exactly these items are shown, in order.
def Shows (selector : Selector) (titles : List String) : Prop :=
  selector.extended = true ∧ selector.extendView.map ItemButton.title = titles

def oneEntry (groups : List (String × List String)) : List NSDictionary := groups.map fun group => [group]

theorem add_items_titles (count start : Nat) (titles : List String) (placing : Placing) :
    ((titles.zipIdx start).foldl (addItem count) placing).items.map ItemButton.title =
      placing.items.map ItemButton.title ++ titles := by
  induction titles generalizing start placing with
  | nil => exact (List.append_nil _).symm
  | cons title rest ih =>
      rw [List.zipIdx_cons, List.foldl_cons, ih]
      simp only [addItem, List.map_append, List.map_cons, List.map_nil, List.append_assoc, List.singleton_append]

theorem item_titles (titles : List String) : (itemButtons titles).map ItemButton.title = titles :=
  add_items_titles titles.length 0 titles ⟨[], none, none⟩

theorem add_titles_buttons (count start : Nat) (array : List NSDictionary) (subviews : List BarSubview) :
    ((array.zipIdx start).foldl (addTitle screenWidth count) subviews).filterMap BarSubview.title? =
      subviews.filterMap BarSubview.title? ++
        (array.zipIdx start).map fun entry => titleButton screenWidth count entry.1 entry.2 := by
  induction array generalizing start subviews with
  | nil => exact (List.append_nil _).symm
  | cons dictionary rest ih =>
      rw [List.zipIdx_cons, List.foldl_cons, ih, addTitle, List.filterMap_append, List.append_assoc, List.map_cons]
      rfl

theorem title_buttons (array : List NSDictionary) (idx : Nat) :
    (titleButtons (initWithArray screenWidth (some array)))[idx]? =
      array[idx]?.map fun dictionary => titleButton screenWidth array.length dictionary idx := by
  rw [titleButtons, initWithArray, createSelectorWithArray, add_titles_buttons]
  simp [List.getElem?_zipIdx, Function.comp_def]

-- Where the items stand in rows of four: beside the item before, and below
-- the item four places before.
def rowLeading (idx : Nat) : Option Nat := if idx % 4 = 0 then none else some (idx - 1)

def rowTop (idx : Nat) : Option (Option Nat) :=
  if idx % 4 = 0 then some (if idx = 0 then none else some (idx - 4)) else none

def columnReference (idx : Nat) : Option Nat := if idx = 0 then none else some ((idx - 1) / 4 * 4)

theorem add_item_across (count idx : Nat) (title : String) (placing : Placing) :
    (addItem count placing (title, idx)).refrenceButton1 = rowLeading (idx + 1) := by
  simp [addItem, rowLeading]

theorem add_item_down (count idx : Nat) (title : String) (placing : Placing)
    (down : placing.refrenceButton2 = columnReference idx) :
    (addItem count placing (title, idx)).refrenceButton2 = columnReference (idx + 1) := by
  simp only [addItem, columnReference, down, Nat.succ_ne_zero, if_false, decide_eq_true_eq, Nat.add_sub_cancel]
  by_cases aligned : idx % 4 = 0
  · rw [if_pos aligned]
    exact congrArg some (by omega)
  · have later : idx ≠ 0 := fun zero => aligned (by rw [zero])
    rw [if_neg aligned, if_neg later]
    exact congrArg some (by omega)

theorem row_top (idx : Nat) : (if idx % 4 = 0 then some (columnReference idx) else none) = rowTop idx := by
  rw [rowTop, columnReference]
  by_cases aligned : idx % 4 = 0
  · have above : (idx - 1) / 4 * 4 = idx - 4 := by omega
    rw [if_pos aligned, if_pos aligned, above]
  · rw [if_neg aligned, if_neg aligned]

theorem add_items_rows (count start : Nat) (titles : List String) (placing : Placing)
    (across : placing.refrenceButton1 = rowLeading start) (down : placing.refrenceButton2 = columnReference start) :
    ((titles.zipIdx start).foldl (addItem count) placing).items =
      placing.items ++ (titles.zipIdx start).map fun entry =>
        ⟨entry.1, rowLeading entry.2, rowTop entry.2, (entry.2 + 1) % 4 = 0, entry.2 + 1 = count⟩ := by
  induction titles generalizing start placing with
  | nil => exact (List.append_nil _).symm
  | cons title rest ih =>
      have nextAcross := add_item_across count start title placing
      have nextDown := add_item_down count start title placing down
      rw [List.zipIdx_cons, List.foldl_cons, ih _ _ nextAcross nextDown, List.map_cons]
      simp [addItem, across, down, row_top]

theorem items_in_rows (titles : List String) :
    itemButtons titles = titles.zipIdx.map fun entry =>
      ⟨entry.1, rowLeading entry.2, rowTop entry.2, (entry.2 + 1) % 4 = 0, entry.2 + 1 = titles.length⟩ :=
  add_items_rows titles.length 0 titles ⟨[], none, none⟩ rfl rfl

theorem show_sub_selector (groups : List (String × List String)) (selector : Selector) (button : TitleButton)
    (group : String × List String) (array : selector.array = oneEntry groups)
    (found : groups[button.tag % 10]? = some group) :
    showSubSelector selector button =
      { selector with extendView := itemButtons group.2, extended := true } := by
  have entry : selector.array[button.tag % 10]? = some [group] := by
    rw [array, oneEntry, List.getElem?_map, found, Option.map_some]
  simp only [showSubSelector, entry]
  rfl

-- A tap on the i-th title button shows the items of this group.
def ShowsGroup (before : Selector) (i : Nat) (group : String × List String) : Prop :=
  ∃ button, (titleButtons before)[i]? = some button ∧ Shows (showSubSelector before button) group.2

-- A selector for these groups, whatever its extend view shows.
def created (groups : List (String × List String)) (extendView : List ItemButton) (extended : Bool) : Selector :=
  { initWithArray screenWidth (some (oneEntry groups)) with extendView := extendView, extended := extended }

theorem created_button (groups : List (String × List String)) (extendView : List ItemButton) (extended : Bool)
    (i : Nat) (group : String × List String) (inside : groups[i]? = some group) :
    ∃ button, (titleButtons (created screenWidth groups extendView extended))[i]? = some button ∧
      button.tag = i + 10 := by
  have button := title_buttons screenWidth (oneEntry groups) i
  rw [oneEntry, List.getElem?_map, inside] at button
  exact ⟨_, button, rfl⟩

-- The tag of a button gives its index back below ten only.
theorem shows_group_iff (groups : List (String × List String)) (extendView : List ItemButton) (extended : Bool)
    (i : Nat) (group : String × List String) (inside : groups[i]? = some group) :
    ShowsGroup (created screenWidth groups extendView extended) i group ↔
      i < 10 ∨ groups[i % 10]?.map Prod.snd = some group.2 := by
  obtain ⟨button, here, tag⟩ := created_button screenWidth groups extendView extended i group inside
  have decoded : button.tag % 10 = i % 10 := by rw [tag, Nat.add_mod_right]
  have length := (List.getElem?_eq_some_iff.mp inside).1
  obtain ⟨other, found⟩ : ∃ other, groups[i % 10]? = some other :=
    ⟨_, List.getElem?_eq_getElem (lt_of_le_of_lt (Nat.mod_le i 10) length)⟩
  have shown := show_sub_selector groups (created screenWidth groups extendView extended) button other rfl
    (decoded ▸ found)
  have shows_iff : ShowsGroup (created screenWidth groups extendView extended) i group ↔ other.2 = group.2 := by
    constructor
    · intro ⟨tapped, same, _, titles⟩
      cases here.symm.trans same
      rw [shown, item_titles] at titles
      exact titles
    · intro same
      exact ⟨button, here, by rw [shown]; exact ⟨rfl, by rw [item_titles, same]⟩⟩
  rw [shows_iff, found, Option.map_some, Option.some.injEq]
  constructor
  · exact Or.inr
  · intro either
    cases either with
    | inl small =>
        rw [Nat.mod_eq_of_lt small, inside] at found
        exact congrArg Prod.snd (Option.some.inj found).symm
    | inr same => exact same

theorem third_group_shown :
    ShowsGroup (created 375 [("Hero", ["All", "Mage"]), ("Price", ["Low"]), ("Type", ["Attack", "Defence"])]
      [⟨"Low", none, some none, false, true⟩] true) 2 ("Type", ["Attack", "Defence"]) :=
  (shows_group_iff 375 _ _ _ 2 ("Type", ["Attack", "Defence"]) rfl).mpr (Or.inl (by decide))

def elevenGroups : List (String × List String) :=
  List.replicate 10 ("Hero", ["All"]) ++ [("Price", ["Low"])]

theorem eleventh_group_shows_first :
    elevenGroups[10]? = some ("Price", ["Low"]) ∧
      ¬ ShowsGroup (created 375 elevenGroups [] false) 10 ("Price", ["Low"]) := by
  refine ⟨rfl, fun ⟨tapped, same, _, titles⟩ => ?_⟩
  obtain ⟨button, here, tag⟩ := created_button 375 elevenGroups [] false 10 ("Price", ["Low"]) rfl
  cases here.symm.trans same
  have first : elevenGroups[tapped.tag % 10]? = some ("Hero", ["All"]) := by
    rw [tag]
    rfl
  rw [show_sub_selector elevenGroups _ tapped ("Hero", ["All"]) rfl first, item_titles] at titles
  exact absurd titles (by decide)

end CultivationMotain.LBSelector

import CultivationMotain.WorldCup.ViewController

set_option autoImplicit false

namespace CultivationMotain.WorldCup

open BatchUpdates Foundation

def RowShows (row : TableRow) (team : Team) : Prop :=
  row.objectID = team.objectID ∧ ∀ cell, row.cell = some cell → cellOf team = some cell

def Shows (rows : List (List TableRow)) (results : List (List Team)) : Prop :=
  List.Forall₂ (List.Forall₂ RowShows) rows results

section Reports

def changedObject : Change → Option Nat
  | .object anObject _ _ _ => some anObject.objectID
  | .sectionInfo _ _ => none

def leavingPath : Change → Option IndexPath
  | .object _ indexPath .delete _ => indexPath
  | .object _ indexPath .move _ => indexPath
  | _ => none

def arrivingPath : Change → Option IndexPath
  | .object _ _ .insert newIndexPath => newIndexPath
  | .object _ _ .move newIndexPath => newIndexPath
  | _ => none

def updatedPath : Change → Option IndexPath
  | .object _ indexPath .update _ => indexPath
  | _ => none

def removedSection : Change → Option Nat
  | .sectionInfo sectionIndex .delete => some sectionIndex
  | _ => none

def insertedSection : Change → Option Nat
  | .sectionInfo sectionIndex .insert => some sectionIndex
  | _ => none

def Finds (results : List (List Team)) (indexPath : Option IndexPath) (anObject : Team) : Prop :=
  ∃ path team, indexPath = some path ∧ elementAt results path = some team ∧ team.objectID = anObject.objectID

def Documented (old new : List (List Team)) : Change → Prop
  | .object anObject indexPath .insert newIndexPath => indexPath = none ∧ Finds new newIndexPath anObject
  | .object anObject indexPath .delete newIndexPath => Finds old indexPath anObject ∧ newIndexPath = none
  | .object anObject indexPath .move newIndexPath => Finds old indexPath anObject ∧ Finds new newIndexPath anObject
  | .object anObject indexPath .update _ => Finds old indexPath anObject
  | .sectionInfo sectionIndex .insert => sectionIndex < new.length
  | .sectionInfo sectionIndex .delete => sectionIndex < old.length
  | .sectionInfo _ _ => False

def objectIDs (results : List (List Team)) : List (List Nat) := results.map fun items => items.map Team.objectID

-- A batch accounts for the difference between the results: an object is
-- reported once, what is not reported to leave is what is not reported to
-- arrive, in the same sections and order, and an object that is not reported
-- has not changed.
structure Reports (old new : List (List Team)) (changes : List Change) : Prop where
  documented : ∀ change ∈ changes, Documented old new change
  once : (changes.filterMap changedObject).Nodup
  oldObjects : (old.flatten.map Team.objectID).Nodup
  newObjects : (new.flatten.map Team.objectID).Nodup
  kept : keptRows (changes.filterMap removedSection) (changes.filterMap leavingPath) (objectIDs old) =
    keptRows (changes.filterMap insertedSection) (changes.filterMap arrivingPath) (objectIDs new)
  arrives : ∀ path, path.sectionIndex ∈ changes.filterMap insertedSection → (elementAt new path).isSome →
    path ∈ changes.filterMap arrivingPath
  unchanged : ∀ oldPath newPath before after, elementAt old oldPath = some before →
    elementAt new newPath = some after → before.objectID = after.objectID →
    before.objectID ∉ changes.filterMap changedObject → before = after

end Reports

-- No object is deleted. The row of an updated object is on screen, and the new
-- results have a team at the row's old path, which shows as the object does if
-- the object is on screen afterwards. Every team on screen has its attributes.
structure Mirrors (onScreen : IndexPath → Bool) (rows : List (List TableRow)) (new : List (List Team))
    (changes : List Change) : Prop where
  undeleted : ∀ anObject indexPath newIndexPath, Change.object anObject indexPath .delete newIndexPath ∉ changes
  refreshed : ∀ anObject path newIndexPath, Change.object anObject (some path) .update newIndexPath ∈ changes →
    ((elementAt rows path).bind TableRow.cell).isSome ∧ (configureCell new path).isSome ∧
      ∀ newPath team, elementAt new newPath = some team → team.objectID = anObject.objectID →
        onScreen newPath = true → configureCell new path = cellOf team
  filled : ∀ path team, elementAt new path = some team → onScreen path = true → (cellOf team).isSome

section Paths

theorem path_unique (sections : List (List Team)) (distinct : (sections.flatten.map Team.objectID).Nodup)
    (first second : IndexPath) (one two : Team) (found_one : elementAt sections first = some one)
    (found_two : elementAt sections second = some two) (same : one.objectID = two.objectID) : first = second := by
  induction sections generalizing first second with
  | nil => cases found_one
  | cons items sections ih =>
      rw [List.flatten_cons, List.map_append] at distinct
      obtain ⟨distinct_items, distinct_rest, apart⟩ := List.nodup_append.mp distinct
      obtain ⟨section_one, row_one⟩ := first
      obtain ⟨section_two, row_two⟩ := second
      cases section_one with
      | zero =>
          have one_in : items[row_one]? = some one := found_one
          cases section_two with
          | zero =>
              have two_in : items[row_two]? = some two := found_two
              have one_id : (items.map Team.objectID)[row_one]? = some one.objectID := by
                rw [List.getElem?_map, one_in, Option.map_some]
              have two_id : (items.map Team.objectID)[row_two]? = some one.objectID := by
                rw [List.getElem?_map, two_in, Option.map_some, same]
              obtain ⟨bound, _⟩ := List.getElem?_eq_some_iff.mp one_id
              rw [(List.getElem?_inj bound distinct_items).mp (one_id.trans two_id.symm)]
          | succ section_two =>
              have two_in := element_at_mem sections ⟨section_two, row_two⟩ two found_two
              exact absurd same (apart _ (List.mem_map_of_mem (List.mem_of_getElem? one_in)) _
                (List.mem_map_of_mem two_in))
      | succ section_one =>
          have one_in := element_at_mem sections ⟨section_one, row_one⟩ one found_one
          cases section_two with
          | zero =>
              have two_in : items[row_two]? = some two := found_two
              exact absurd same.symm (apart _ (List.mem_map_of_mem (List.mem_of_getElem? two_in)) _
                (List.mem_map_of_mem one_in))
          | succ section_two =>
              have inner := ih distinct_rest ⟨section_one, row_one⟩ ⟨section_two, row_two⟩ found_one found_two
              cases inner
              rfl

theorem modify_at {α : Type} (elements : List α) (index other : Nat) (f : α → α) :
    (elements.modify index f)[other]? =
      elements[other]?.map fun element => if index = other then f element else element :=
  List.getElem?_modify ..

theorem element_at_set_cell (rows : List (List TableRow)) (path other : IndexPath) (cell : TeamCell) :
    elementAt (setCell rows path cell) other =
      (elementAt rows other).map fun row => if path = other then { row with cell := some cell } else row := by
  unfold elementAt setCell
  rw [modify_at]
  cases rows[other.sectionIndex]? with
  | none => rfl
  | some items =>
      rw [Option.map_some, Option.bind_some, Option.bind_some]
      by_cases same : path.sectionIndex = other.sectionIndex
      · have paths : path = other ↔ path.row = other.row := by
          refine ⟨congrArg IndexPath.row, fun row => ?_⟩
          cases path
          cases other
          cases same
          cases row
          rfl
        rw [if_pos same, modify_at]
        simp only [paths]
      · have paths : path ≠ other := fun equal => same (congrArg IndexPath.sectionIndex equal)
        rw [if_neg same]
        simp only [if_neg paths, Option.map_id']

theorem modify_map {α β : Type} (elements : List α) (index : Nat) (f : α → α) (g : α → β)
    (unchanged : ∀ element, g (f element) = g element) : (elements.modify index f).map g = elements.map g := by
  refine List.ext_getElem? fun other => ?_
  rw [List.getElem?_map, modify_at, List.getElem?_map]
  cases elements[other]? with
  | none => rfl
  | some element =>
      rw [Option.map_some, Option.map_some, Option.map_some]
      split
      · rw [unchanged]
      · rfl

theorem set_cell_objects (rows : List (List TableRow)) (path : IndexPath) (cell : TeamCell) :
    (setCell rows path cell).map (fun items => items.map TableRow.objectID) =
      rows.map fun items => items.map TableRow.objectID :=
  modify_map rows path.sectionIndex _ _ fun items => modify_map items path.row _ _ fun _ => rfl

end Paths

section Changes

variable (results : List (List Team))

def shownAt (rows : List (List TableRow)) (path : IndexPath) : Option TeamCell :=
  (elementAt rows path).bind TableRow.cell

def Handled (rows : List (List TableRow)) : Change → Prop
  | .object _ _ .delete _ => False
  | .object _ indexPath .update _ => ∀ path, indexPath = some path →
      (shownAt rows path).isSome ∧ (configureCell results path).isSome
  | _ => True

structure Advanced (changes : List Change) (table next : UITableView) : Prop where
  deletedRows : next.deletedRows = table.deletedRows ++ changes.filterMap leavingPath
  insertedRows : next.insertedRows = table.insertedRows ++ changes.filterMap arrivingPath
  deletedSections : next.deletedSections = table.deletedSections ++ changes.filterMap removedSection
  insertedSections : next.insertedSections = table.insertedSections ++ changes.filterMap insertedSection
  objects : next.rows.map (fun items => items.map TableRow.objectID) =
    table.rows.map fun items => items.map TableRow.objectID
  cells : ∀ path, elementAt next.rows path = (elementAt table.rows path).map fun row =>
    if path ∈ changes.filterMap updatedPath then { row with cell := configureCell results path } else row

theorem advanced_refl (table : UITableView) : Advanced results [] table table where
  deletedRows := (List.append_nil _).symm
  insertedRows := (List.append_nil _).symm
  deletedSections := (List.append_nil _).symm
  insertedSections := (List.append_nil _).symm
  objects := rfl
  cells := fun path => by simp

theorem advanced_trans (first second : List Change) (table next final : UITableView)
    (before : Advanced results first table next) (after : Advanced results second next final) :
    Advanced results (first ++ second) table final where
  deletedRows := by rw [after.deletedRows, before.deletedRows, List.filterMap_append, List.append_assoc]
  insertedRows := by rw [after.insertedRows, before.insertedRows, List.filterMap_append, List.append_assoc]
  deletedSections := by rw [after.deletedSections, before.deletedSections, List.filterMap_append, List.append_assoc]
  insertedSections := by
    rw [after.insertedSections, before.insertedSections, List.filterMap_append, List.append_assoc]
  objects := after.objects.trans before.objects
  cells := fun path => by
    rw [after.cells, before.cells, Option.map_map, List.filterMap_append]
    refine Option.map_congr fun row _ => ?_
    by_cases late : path ∈ second.filterMap updatedPath
    · by_cases early : path ∈ first.filterMap updatedPath
      · simp only [Function.comp_apply, List.mem_append, early, late, true_or, if_true]
      · simp only [Function.comp_apply, List.mem_append, early, late, or_true, if_true, if_false]
    · simp only [Function.comp_apply, List.mem_append, late, or_false, if_false]

theorem did_change_tells (old : List (List Team)) (table : UITableView) (change : Change)
    (documented : Documented old results change) (handled : Handled results table.rows change)
    (other : updatedPath change = none) :
    didChange results table change = some ⟨table.rows, table.deletedRows ++ (leavingPath change).toList,
      table.insertedRows ++ (arrivingPath change).toList, table.deletedSections ++ (removedSection change).toList,
      table.insertedSections ++ (insertedSection change).toList⟩ := by
  cases change with
  | sectionInfo sectionIndex type =>
      cases type with
      | insert => simp [didChange, didChangeSection, leavingPath, arrivingPath, removedSection, insertedSection]
      | delete => simp [didChange, didChangeSection, leavingPath, arrivingPath, removedSection, insertedSection]
      | move => exact documented.elim
      | update => exact documented.elim
  | object anObject indexPath type newIndexPath =>
      cases type with
      | insert =>
          obtain ⟨_, path, _, rfl, _⟩ := documented
          simp [didChange, didChangeObject, leavingPath, arrivingPath, removedSection, insertedSection]
      | delete => exact handled.elim
      | move =>
          obtain ⟨⟨path, _, rfl, _⟩, newPath, _, rfl, _⟩ := documented
          simp [didChange, didChangeObject, leavingPath, arrivingPath, removedSection, insertedSection]
      | update =>
          obtain ⟨path, _, rfl, _⟩ := documented
          cases other

theorem told_advanced (table : UITableView) (change : Change) (other : updatedPath change = none) :
    Advanced results [change] table ⟨table.rows, table.deletedRows ++ (leavingPath change).toList,
      table.insertedRows ++ (arrivingPath change).toList, table.deletedSections ++ (removedSection change).toList,
      table.insertedSections ++ (insertedSection change).toList⟩ := by
  have single : ∀ {α : Type} (f : Change → Option α), [change].filterMap f = (f change).toList := by
    intro α f
    cases made : f change with
    | none => simp [made]
    | some value => simp [made]
  refine ⟨by rw [single], by rw [single], by rw [single], by rw [single], rfl, fun path => ?_⟩
  rw [single, other]
  simp

theorem update_advanced (table : UITableView) (anObject : Team) (path : IndexPath) (newIndexPath : Option IndexPath)
    (cell : TeamCell) (configured : configureCell results path = some cell) :
    Advanced results [.object anObject (some path) .update newIndexPath] table
      { table with rows := setCell table.rows path cell } := by
  refine ⟨by simp [leavingPath], by simp [arrivingPath], by simp [removedSection], by simp [insertedSection],
    set_cell_objects table.rows path cell, fun other => ?_⟩
  rw [element_at_set_cell]
  refine Option.map_congr fun row _ => ?_
  by_cases same : path = other
  · subst same
    simp [updatedPath, configured]
  · simp [updatedPath, same, Ne.symm same]

theorem updated_path_some (change : Change) (path : IndexPath) (updated : updatedPath change = some path) :
    ∃ anObject newIndexPath, change = .object anObject (some path) .update newIndexPath := by
  cases change with
  | sectionInfo sectionIndex type => cases updated
  | object anObject indexPath type newIndexPath =>
      cases type with
      | insert => cases updated
      | delete => cases updated
      | move => cases updated
      | update =>
          obtain rfl : indexPath = some path := updated
          exact ⟨anObject, newIndexPath, rfl⟩

theorem did_change_handled (old : List (List Team)) (table : UITableView) (change : Change)
    (documented : Documented old results change) (handled : Handled results table.rows change) :
    ∃ next, didChange results table change = some next ∧ Advanced results [change] table next := by
  cases updated : updatedPath change with
  | none => exact ⟨_, did_change_tells results old table change documented handled updated,
      told_advanced results table change updated⟩
  | some path =>
      obtain ⟨anObject, newIndexPath, rfl⟩ := updated_path_some change path updated
      obtain ⟨visible, set⟩ := handled path rfl
      obtain ⟨old_cell, there⟩ := Option.isSome_iff_exists.mp visible
      obtain ⟨cell, configured⟩ := Option.isSome_iff_exists.mp set
      refine ⟨_, ?_, update_advanced results table anObject path newIndexPath cell configured⟩
      simp only [didChange, didChangeObject, Option.bind_eq_bind, Option.bind_some, configured]
      rw [show cellForRow table path = some old_cell from there, Option.bind_some]

theorem did_change_returns (old : List (List Team)) (table next : UITableView) (change : Change)
    (documented : Documented old results change) (returned : didChange results table change = some next) :
    Handled results table.rows change := by
  cases change with
  | sectionInfo sectionIndex type => trivial
  | object anObject indexPath type newIndexPath =>
      cases type with
      | insert => trivial
      | delete =>
          obtain ⟨_, rfl⟩ := documented
          cases returned
      | move => trivial
      | update =>
          rintro path rfl
          obtain ⟨old_cell, there, returned⟩ := Option.bind_eq_some_iff.mp returned
          obtain ⟨cell, configured, _⟩ := Option.bind_eq_some_iff.mp returned
          exact ⟨Option.isSome_iff_exists.mpr ⟨old_cell, there⟩, Option.isSome_iff_exists.mpr ⟨cell, configured⟩⟩

theorem advanced_shown (changes : List Change) (table next : UITableView)
    (advanced : Advanced results changes table next)
    (handled : ∀ change ∈ changes, Handled results table.rows change) (path : IndexPath) :
    (shownAt next.rows path).isSome = (shownAt table.rows path).isSome := by
  unfold shownAt
  rw [advanced.cells]
  by_cases updated : path ∈ changes.filterMap updatedPath
  · obtain ⟨change, member, at_path⟩ := List.mem_filterMap.mp updated
    obtain ⟨anObject, newIndexPath, rfl⟩ := updated_path_some change path at_path
    obtain ⟨visible, set⟩ := handled _ member path rfl
    obtain ⟨cell, there⟩ := Option.isSome_iff_exists.mp visible
    obtain ⟨row, found, _⟩ := Option.bind_eq_some_iff.mp there
    rw [shownAt] at visible
    rw [visible, found, Option.map_some, Option.bind_some, if_pos updated, set]
  · simp only [if_neg updated, Option.map_id']

theorem handled_kept (changes : List Change) (table next : UITableView)
    (advanced : Advanced results changes table next)
    (handled : ∀ change ∈ changes, Handled results table.rows change) (other : Change) :
    Handled results next.rows other ↔ Handled results table.rows other := by
  have shown := advanced_shown results changes table next advanced handled
  cases other with
  | sectionInfo sectionIndex type => exact Iff.rfl
  | object anObject indexPath type newIndexPath =>
      cases type with
      | insert => exact Iff.rfl
      | delete => exact Iff.rfl
      | move => exact Iff.rfl
      | update => simp only [Handled, shown]

theorem changes_returned (old : List (List Team)) (changes : List Change) (table : UITableView)
    (documented : ∀ change ∈ changes, Documented old results change) :
    ((∀ change ∈ changes, Handled results table.rows change) →
      ∃ final, changes.foldlM (didChange results) table = some final ∧ Advanced results changes table final) ∧
      ∀ final, changes.foldlM (didChange results) table = some final →
        ∀ change ∈ changes, Handled results table.rows change := by
  induction changes generalizing table with
  | nil => exact ⟨fun _ => ⟨table, rfl, advanced_refl results table⟩, fun _ _ change absent => nomatch absent⟩
  | cons change changes ih =>
      obtain ⟨documented_first, documented_rest⟩ := List.forall_mem_cons.mp documented
      have alone : ∀ next, Advanced results [change] table next → Handled results table.rows change →
          ∀ other, Handled results next.rows other ↔ Handled results table.rows other :=
        fun next advanced handled other =>
          handled_kept results [change] table next advanced (List.forall_mem_singleton.mpr handled) other
      constructor
      · intro handled
        obtain ⟨first, rest⟩ := List.forall_mem_cons.mp handled
        obtain ⟨next, returned, advanced⟩ := did_change_handled results old table change documented_first first
        obtain ⟨final, later, others⟩ := (ih next documented_rest).1 fun other member =>
          (alone next advanced first other).mpr (rest other member)
        refine ⟨final, ?_, advanced_trans results [change] changes table next final advanced others⟩
        rw [List.foldlM_cons, returned]
        exact later
      · intro final returned
        rw [List.foldlM_cons] at returned
        obtain ⟨next, first, rest⟩ := Option.bind_eq_some_iff.mp returned
        have handled := did_change_returns results old table next change documented_first first
        obtain ⟨same, returned_again, advanced⟩ :=
          did_change_handled results old table change documented_first handled
        obtain rfl := Option.some.inj (first.symm.trans returned_again)
        exact List.forall_mem_cons.mpr ⟨handled, fun other member =>
          (alone next advanced handled other).mp ((ih next documented_rest).2 final rest other member)⟩

end Changes

section Ending

variable (onScreen : IndexPath → Bool) (results : List (List Team))

def Fits (path : IndexPath) (row : TableRow) (team : Team) : Prop :=
  onScreen path = true → (cellOf team).isSome ∧ ∀ cell, row.cell = some cell → cellOf team = some cell

theorem display_row_iff (path : IndexPath) (row : TableRow) (team : Team)
    (found : elementAt results path = some team) :
    (∃ shown, displayRow onScreen results path row = some shown ∧ RowShows shown team) ↔
      row.objectID = team.objectID ∧ Fits onScreen path row team := by
  have configured : configureCell results path = cellOf team := by
    rw [configureCell, found, Option.bind_some]
  unfold displayRow Fits
  by_cases visible : onScreen path = true
  · simp only [visible, if_true, forall_const]
    cases present : row.cell with
    | none =>
        rw [configured]
        constructor
        · rintro ⟨shown, made, same, _⟩
          obtain ⟨cell, set, rfl⟩ := Option.map_eq_some_iff.mp made
          exact ⟨same, by rw [set]; rfl, fun _ absent => nomatch absent⟩
        · rintro ⟨same, set, _⟩
          obtain ⟨cell, made⟩ := Option.isSome_iff_exists.mp set
          exact ⟨{ row with cell := some cell }, by rw [made]; rfl, same, fun other here => by
            cases here
            exact made⟩
    | some cell =>
        constructor
        · rintro ⟨shown, made, same, shows⟩
          obtain rfl := Option.some.inj made
          have set := shows cell present
          exact ⟨same, by rw [set]; rfl, fun other here => by
            cases here
            exact set⟩
        · rintro ⟨same, _, shows⟩
          exact ⟨row, rfl, same, fun other here => shows other (present ▸ here)⟩
  · simp only [visible]
    constructor
    · rintro ⟨shown, made, same, _⟩
      obtain rfl := Option.some.inj made
      exact ⟨same, fun absent => nomatch absent⟩
    · rintro ⟨same, _⟩
      exact ⟨{ row with cell := none }, rfl, same, fun _ absent => nomatch absent⟩

theorem end_rows_iff (sectionIndex : Nat) (inserted : Nat → Bool) (kept : List TableRow) (items : List Team)
    (there : results[sectionIndex]? = some items) :
    (∃ shown, endRows onScreen results sectionIndex inserted kept items = some shown ∧
        List.Forall₂ RowShows shown items) ↔
      (∀ row team, items[row]? = some team → inserted row = true → onScreen ⟨sectionIndex, row⟩ = true →
        (cellOf team).isSome) ∧
      List.Forall₂ (fun keptRow pair => keptRow.objectID = pair.1.objectID ∧
        Fits onScreen ⟨sectionIndex, pair.2⟩ keptRow pair.1) kept (survivors inserted items 0) := by
  have found : ∀ row team, items[row]? = some team → elementAt results ⟨sectionIndex, row⟩ = some team := by
    intro row team item_at
    exact (element_at_some results ⟨sectionIndex, row⟩ team).mpr ⟨items, there, item_at⟩
  refine (splice_iff RowShows inserted _ _ 0 kept items).trans (and_congr ?_ ?_)
  · constructor
    · intro all row team item_at made visible
      have pair_in : (team, row) ∈ items.zipIdx 0 := List.mem_zipIdx_iff_getElem?.mpr item_at
      exact (((display_row_iff onScreen results ⟨sectionIndex, row⟩ ⟨team.objectID, none⟩ team
        (found row team item_at)).mp (all (team, row) pair_in made)).2 visible).1
    · intro all pair pair_in made
      have item_at := List.mem_zipIdx_iff_getElem?.mp pair_in
      exact (display_row_iff onScreen results ⟨sectionIndex, pair.2⟩ ⟨pair.1.objectID, none⟩ pair.1
        (found pair.2 pair.1 item_at)).mpr
          ⟨rfl, fun visible => ⟨all pair.2 pair.1 item_at made visible, fun _ absent => nomatch absent⟩⟩
  · refine related_congr _ _ kept _ fun keptRow pair member => ?_
    exact display_row_iff onScreen results ⟨sectionIndex, pair.2⟩ keptRow pair.1
      (found pair.2 pair.1 ((mem_survivors inserted items pair).mp member).1)

def KeptFits (insertedSections : List Nat) (insertedRows : List IndexPath) (kept : List (List TableRow)) : Prop :=
  List.Forall₂ (fun keptSection pair => List.Forall₂ (fun keptRow item => keptRow.objectID = item.1.objectID ∧
      Fits onScreen ⟨pair.2, item.2⟩ keptRow item.1) keptSection
    (survivors (fun row => insertedRows.contains ⟨pair.2, row⟩) pair.1 0)) kept
    (survivors insertedSections.contains results 0)

theorem end_updates_iff (table : UITableView)
    (deleted : ∀ path ∈ table.deletedRows, (elementAt table.rows path).isSome)
    (removed : ∀ index ∈ table.deletedSections, index < table.rows.length)
    (inserted : ∀ path ∈ table.insertedRows, (elementAt results path).isSome)
    (added : ∀ index ∈ table.insertedSections, index < results.length) :
    (∃ after, endUpdates onScreen results table = some after ∧ Shows after results) ↔
      (∀ path team, elementAt results path = some team →
        path.sectionIndex ∈ table.insertedSections ∨ path ∈ table.insertedRows → onScreen path = true →
        (cellOf team).isSome) ∧
      KeptFits onScreen results table.insertedSections table.insertedRows
        (keptRows table.deletedSections table.deletedRows table.rows) := by
  have in_range := And.intro (List.all_eq_true.mpr deleted) <|
    And.intro (List.all_eq_true.mpr fun index member => decide_eq_true (removed index member)) <|
    And.intro (List.all_eq_true.mpr inserted)
      (List.all_eq_true.mpr fun index member => decide_eq_true (added index member))
  rw [endUpdates, if_pos in_range]
  refine (splice_iff (List.Forall₂ RowShows) _ _ _ 0 _ results).trans ?_
  have sections : ∀ pair ∈ survivors table.insertedSections.contains results 0,
      results[pair.2]? = some pair.1 ∧ pair.2 ∉ table.insertedSections := by
    intro pair member
    obtain ⟨there, other⟩ := (mem_survivors _ results pair).mp member
    exact ⟨there, (not_listed_iff _ _).mp other⟩
  rw [related_congr _ _ _ _ fun keptSection pair member =>
    end_rows_iff onScreen results pair.2 _ keptSection pair.1 (sections pair member).1, related_and_right, ← and_assoc]
  refine and_congr_left fun _ => ?_
  constructor
  · rintro ⟨fresh, others⟩ path team found arrived visible
    obtain ⟨items, section_at, item_at⟩ := (element_at_some results path team).mp found
    by_cases listed : path.sectionIndex ∈ table.insertedSections
    · have pair_in : (items, path.sectionIndex) ∈ results.zipIdx 0 := List.mem_zipIdx_iff_getElem?.mpr section_at
      exact ((end_rows_iff onScreen results path.sectionIndex _ [] items section_at).mp
        (fresh _ pair_in (List.contains_iff_mem.mpr listed))).1 path.row team item_at rfl visible
    · have pair_in : (items, path.sectionIndex) ∈ survivors table.insertedSections.contains results 0 :=
        (mem_survivors _ results _).mpr ⟨section_at, (not_listed_iff _ _).mpr listed⟩
      exact others _ pair_in path.row team item_at (List.contains_iff_mem.mpr (arrived.resolve_left listed)) visible
  · intro arrives
    constructor
    · intro pair pair_in listed
      have section_at := List.mem_zipIdx_iff_getElem?.mp pair_in
      refine (end_rows_iff onScreen results pair.2 _ [] pair.1 section_at).mpr
        ⟨fun row team item_at _ visible => ?_, ?_⟩
      · exact arrives ⟨pair.2, row⟩ team ((element_at_some results ⟨pair.2, row⟩ team).mpr ⟨_, section_at, item_at⟩)
          (.inl (List.contains_iff_mem.mp listed)) visible
      · rw [survivors_all]
        exact .nil
    · intro pair member row team item_at listed visible
      exact arrives ⟨pair.2, row⟩ team
        ((element_at_some results ⟨pair.2, row⟩ team).mpr ⟨_, (sections pair member).1, item_at⟩)
        (.inr (List.contains_iff_mem.mp listed)) visible

end Ending

section Kept

variable {onScreen : IndexPath → Bool} {results : List (List Team)}

theorem kept_rows_map {α β : Type} (f : α → β) (deletedSections : List Nat) (deletedRows : List IndexPath)
    (rows : List (List α)) :
    keptRows deletedSections deletedRows (rows.map fun items => items.map f) =
      (keptRows deletedSections deletedRows rows).map fun items => items.map f := by
  unfold keptRows
  rw [survivors_map, List.map_map, List.map_map]
  refine List.map_congr_left fun pair _ => ?_
  simp only [Function.comp_apply]
  rw [survivors_map, List.map_map, List.map_map]
  rfl

theorem mem_kept_rows {α : Type} (deletedSections : List Nat) (deletedRows : List IndexPath) (rows : List (List α))
    (keptSection : List α) (member : keptSection ∈ keptRows deletedSections deletedRows rows) (row : α)
    (inside : row ∈ keptSection) :
    ∃ path, elementAt rows path = some row ∧ path ∉ deletedRows := by
  obtain ⟨⟨items, index⟩, pair_in, rfl⟩ := List.mem_map.mp member
  obtain ⟨⟨_, position⟩, row_in, rfl⟩ := List.mem_map.mp inside
  obtain ⟨section_at, _⟩ := (mem_survivors _ rows _).mp pair_in
  obtain ⟨row_at, stays⟩ := (mem_survivors _ items _).mp row_in
  exact ⟨⟨index, position⟩, (element_at_some rows _ _).mpr ⟨items, section_at, row_at⟩,
    (not_listed_iff _ _).mp stays⟩

theorem kept_fits_of (insertedSections : List Nat) (insertedRows : List IndexPath) (deletedSections : List Nat)
    (deletedRows : List IndexPath) (rows : List (List TableRow))
    (same : keptRows deletedSections deletedRows (rows.map fun items => items.map TableRow.objectID) =
      keptRows insertedSections insertedRows (objectIDs results))
    (fits : ∀ path row newPath team, elementAt rows path = some row → path ∉ deletedRows →
      elementAt results newPath = some team → newPath ∉ insertedRows → row.objectID = team.objectID →
      Fits onScreen newPath row team) :
    KeptFits onScreen results insertedSections insertedRows (keptRows deletedSections deletedRows rows) := by
  rw [kept_rows_map, objectIDs, kept_rows_map] at same
  have sections := related_of_map _ _ _ _ same
  rw [keptRows.eq_def insertedSections insertedRows results, List.forall₂_map_right_iff] at sections
  refine related_members _ _ _ _ sections fun keptSection kept_in pair pair_in same_section => ?_
  rw [List.map_map] at same_section
  refine related_members _ _ _ _ (related_of_map _ _ _ _ same_section) fun row row_in item item_in same_row => ?_
  obtain ⟨path, row_at, stays⟩ := mem_kept_rows _ _ rows keptSection kept_in row row_in
  obtain ⟨section_at, _⟩ := (mem_survivors _ results pair).mp pair_in
  obtain ⟨item_at, old_row⟩ := (mem_survivors _ pair.1 item).mp item_in
  exact ⟨same_row, fits path row ⟨pair.2, item.2⟩ item.1 row_at stays
    ((element_at_some results _ _).mpr ⟨pair.1, section_at, item_at⟩) ((not_listed_iff _ _).mp old_row) same_row⟩

theorem kept_fits_at (insertedSections : List Nat) (insertedRows : List IndexPath) (deletedSections : List Nat)
    (deletedRows : List IndexPath) (rows : List (List TableRow))
    (fits : KeptFits onScreen results insertedSections insertedRows (keptRows deletedSections deletedRows rows))
    (newPath : IndexPath) (team : Team) (found : elementAt results newPath = some team)
    (old_section : newPath.sectionIndex ∉ insertedSections) (old_row : newPath ∉ insertedRows) :
    ∃ path row, elementAt rows path = some row ∧ path ∉ deletedRows ∧ row.objectID = team.objectID ∧
      Fits onScreen newPath row team := by
  obtain ⟨items, section_at, item_at⟩ := (element_at_some results newPath team).mp found
  have pair_in : (items, newPath.sectionIndex) ∈ survivors insertedSections.contains results 0 :=
    (mem_survivors _ results _).mpr ⟨section_at, (not_listed_iff _ _).mpr old_section⟩
  have item_in : (team, newPath.row) ∈
      survivors (fun row => insertedRows.contains ⟨newPath.sectionIndex, row⟩) items 0 :=
    (mem_survivors _ items _).mpr ⟨item_at, (not_listed_iff _ _).mpr old_row⟩
  obtain ⟨keptSection, kept_in, related⟩ := related_right _ _ _ fits _ pair_in
  obtain ⟨row, row_in, same, fitting⟩ := related_right _ _ _ related _ item_in
  obtain ⟨path, row_at, stays⟩ := mem_kept_rows _ _ rows keptSection kept_in row row_in
  exact ⟨path, row, row_at, stays, same, fitting⟩

end Kept

section Batches

variable (old new : List (List Team))

theorem change_leaves (change : Change) (documented : Documented old new change) (path : IndexPath)
    (leaves : leavingPath change = some path) :
    ∃ team, elementAt old path = some team ∧ changedObject change = some team.objectID := by
  cases change with
  | sectionInfo sectionIndex type => cases leaves
  | object anObject indexPath type newIndexPath =>
      cases type with
      | insert => cases leaves
      | delete =>
          obtain ⟨⟨_, team, rfl, found, same⟩, _⟩ := documented
          cases leaves
          exact ⟨team, found, congrArg some same.symm⟩
      | move =>
          obtain ⟨⟨_, team, rfl, found, same⟩, _⟩ := documented
          cases leaves
          exact ⟨team, found, congrArg some same.symm⟩
      | update => cases leaves

theorem change_arrives (change : Change) (documented : Documented old new change) (path : IndexPath)
    (arrives : arrivingPath change = some path) :
    ∃ team, elementAt new path = some team ∧ changedObject change = some team.objectID := by
  cases change with
  | sectionInfo sectionIndex type => cases arrives
  | object anObject indexPath type newIndexPath =>
      cases type with
      | insert =>
          obtain ⟨_, _, team, rfl, found, same⟩ := documented
          cases arrives
          exact ⟨team, found, congrArg some same.symm⟩
      | delete => cases arrives
      | move =>
          obtain ⟨_, _, team, rfl, found, same⟩ := documented
          cases arrives
          exact ⟨team, found, congrArg some same.symm⟩
      | update => cases arrives

theorem change_removes (change : Change) (documented : Documented old new change) (index : Nat)
    (removes : removedSection change = some index) : index < old.length := by
  cases change with
  | object anObject indexPath type newIndexPath => cases removes
  | sectionInfo sectionIndex type =>
      cases type with
      | delete =>
          cases removes
          exact documented
      | insert => cases removes
      | move => cases removes
      | update => cases removes

theorem change_inserts (change : Change) (documented : Documented old new change) (index : Nat)
    (inserts : insertedSection change = some index) : index < new.length := by
  cases change with
  | object anObject indexPath type newIndexPath => cases inserts
  | sectionInfo sectionIndex type =>
      cases type with
      | insert =>
          cases inserts
          exact documented
      | delete => cases inserts
      | move => cases inserts
      | update => cases inserts

theorem change_places (change : Change) (documented : Documented old new change) (objectID : Nat)
    (changed : changedObject change = some objectID) :
    (∃ path team, elementAt old path = some team ∧ team.objectID = objectID ∧
      (leavingPath change = some path ∨ updatedPath change = some path)) ∨
      ∃ path team, elementAt new path = some team ∧ team.objectID = objectID ∧ arrivingPath change = some path := by
  cases change with
  | sectionInfo sectionIndex type => cases changed
  | object anObject indexPath type newIndexPath =>
      cases changed
      cases type with
      | insert =>
          obtain ⟨_, path, team, rfl, found, same⟩ := documented
          exact .inr ⟨path, team, found, same, rfl⟩
      | delete =>
          obtain ⟨⟨path, team, rfl, found, same⟩, _⟩ := documented
          exact .inl ⟨path, team, found, same, .inl rfl⟩
      | move =>
          obtain ⟨⟨path, team, rfl, found, same⟩, _⟩ := documented
          exact .inl ⟨path, team, found, same, .inl rfl⟩
      | update =>
          obtain ⟨path, team, rfl, found, same⟩ := documented
          exact .inl ⟨path, team, found, same, .inr rfl⟩

theorem reported_once (changes : List Change) (once : (changes.filterMap changedObject).Nodup) (first second : Change)
    (first_in : first ∈ changes) (second_in : second ∈ changes) (objectID : Nat)
    (one : changedObject first = some objectID) (two : changedObject second = some objectID) : first = second := by
  induction changes with
  | nil => cases first_in
  | cons change changes ih =>
      have listed : ∀ other ∈ changes, changedObject other = some objectID →
          objectID ∈ changes.filterMap changedObject :=
        fun other member same => List.mem_filterMap.mpr ⟨other, member, same⟩
      cases reported : changedObject change with
      | none =>
          rw [List.filterMap_cons_none reported] at once
          have first_later : first ∈ changes := (List.mem_cons.mp first_in).resolve_left fun same => by
            rw [same, reported] at one
            cases one
          have second_later : second ∈ changes := (List.mem_cons.mp second_in).resolve_left fun same => by
            rw [same, reported] at two
            cases two
          exact ih once first_later second_later
      | some object =>
          rw [List.filterMap_cons_some reported, List.nodup_cons] at once
          rcases List.mem_cons.mp first_in with rfl | first_later
          · rcases List.mem_cons.mp second_in with rfl | second_later
            · rfl
            · obtain rfl := Option.some.inj (reported.symm.trans one)
              exact absurd (listed second second_later two) once.1
          · rcases List.mem_cons.mp second_in with rfl | second_later
            · obtain rfl := Option.some.inj (reported.symm.trans two)
              exact absurd (listed first first_later one) once.1
            · exact ih once.2 first_later second_later

end Batches

section Shown

variable (rows : List (List TableRow)) (results : List (List Team))

theorem shows_objects (shown : Shows rows results) :
    rows.map (fun items => items.map TableRow.objectID) = objectIDs results := by
  have inner : ∀ (items : List TableRow) (teams : List Team), List.Forall₂ RowShows items teams →
      items.map TableRow.objectID = teams.map Team.objectID := by
    intro items teams related
    induction related with
    | nil => rfl
    | cons here _ ih => rw [List.map_cons, List.map_cons, here.1, ih]
  unfold objectIDs
  induction shown with
  | nil => rfl
  | cons here _ ih => rw [List.map_cons, List.map_cons, inner _ _ here, ih]

theorem shows_at (shown : Shows rows results) (path : IndexPath) (row : TableRow)
    (found : elementAt rows path = some row) :
    ∃ team, elementAt results path = some team ∧ RowShows row team := by
  obtain ⟨items, section_at, item_at⟩ := (element_at_some rows path row).mp found
  obtain ⟨teams, teams_at, related⟩ := related_at _ rows results shown _ items section_at
  obtain ⟨team, team_at, shows⟩ := related_at _ items teams related _ row item_at
  exact ⟨team, (element_at_some results path team).mpr ⟨teams, teams_at, team_at⟩, shows⟩

theorem shown_object_at (shown : Shows rows results) (path : IndexPath) (team : Team)
    (found : elementAt results path = some team) :
    ∃ row, elementAt rows path = some row ∧ row.objectID = team.objectID := by
  have objects := congrArg (fun ids => elementAt ids path) (shows_objects rows results shown)
  simp only [objectIDs, element_at_map, found, Option.map_some] at objects
  exact Option.map_eq_some_iff.mp objects

end Shown

section Mirroring

variable {onScreen : IndexPath → Bool} {old new : List (List Team)} {rows : List (List TableRow)}
  {changes : List Change}

theorem end_updates_reported (shown : Shows rows old) (reported : Reports old new changes) (final : UITableView)
    (advanced : Advanced new changes (beginUpdates rows) final) :
    (∃ after, endUpdates onScreen new final = some after ∧ Shows after new) ↔
      (∀ path team, elementAt new path = some team →
        path.sectionIndex ∈ changes.filterMap insertedSection ∨ path ∈ changes.filterMap arrivingPath →
        onScreen path = true → (cellOf team).isSome) ∧
      KeptFits onScreen new (changes.filterMap insertedSection) (changes.filterMap arrivingPath)
        (keptRows (changes.filterMap removedSection) (changes.filterMap leavingPath) final.rows) := by
  have deletedRows : final.deletedRows = changes.filterMap leavingPath := advanced.deletedRows
  have insertedRows : final.insertedRows = changes.filterMap arrivingPath := advanced.insertedRows
  have deletedSections : final.deletedSections = changes.filterMap removedSection := advanced.deletedSections
  have insertedSections : final.insertedSections = changes.filterMap insertedSection := advanced.insertedSections
  have size : final.rows.length = old.length := by
    have objects := congrArg List.length (advanced.objects.trans (shows_objects rows old shown))
    simpa only [objectIDs, List.length_map] using objects
  rw [← deletedRows, ← insertedRows, ← deletedSections, ← insertedSections]
  refine end_updates_iff onScreen new final (fun path member => ?_) (fun index member => ?_) (fun path member => ?_)
    fun index member => ?_
  · rw [deletedRows] at member
    obtain ⟨change, change_in, leaves⟩ := List.mem_filterMap.mp member
    obtain ⟨team, found, _⟩ := change_leaves old new change (reported.documented change change_in) path leaves
    obtain ⟨row, there, _⟩ := shown_object_at rows old shown path team found
    have there : elementAt (beginUpdates rows).rows path = some row := there
    rw [advanced.cells, there]
    rfl
  · rw [deletedSections] at member
    obtain ⟨change, change_in, removes⟩ := List.mem_filterMap.mp member
    rw [size]
    exact change_removes old new change (reported.documented change change_in) index removes
  · rw [insertedRows] at member
    obtain ⟨change, change_in, arrives⟩ := List.mem_filterMap.mp member
    obtain ⟨team, found, _⟩ := change_arrives old new change (reported.documented change change_in) path arrives
    rw [found]
    rfl
  · rw [insertedSections] at member
    obtain ⟨change, change_in, inserts⟩ := List.mem_filterMap.mp member
    exact change_inserts old new change (reported.documented change change_in) index inserts

theorem kept_row (shown : Shows rows old) (final : UITableView)
    (advanced : Advanced new changes (beginUpdates rows) final) (path : IndexPath) (row : TableRow)
    (found : elementAt final.rows path = some row) :
    ∃ team before, elementAt old path = some team ∧ elementAt rows path = some before ∧ RowShows before team ∧
      row.objectID = team.objectID ∧
      row.cell = if path ∈ changes.filterMap updatedPath then configureCell new path else before.cell := by
  rw [advanced.cells] at found
  obtain ⟨before, there, rfl⟩ := Option.map_eq_some_iff.mp found
  obtain ⟨team, team_at, shows⟩ := shows_at rows old shown path before there
  refine ⟨team, before, team_at, there, shows, ?_⟩
  split
  · exact ⟨shows.1, rfl⟩
  · exact ⟨shows.1, rfl⟩

theorem mirrors_fits (shown : Shows rows old) (reported : Reports old new changes)
    (mirrors : Mirrors onScreen rows new changes) (final : UITableView)
    (advanced : Advanced new changes (beginUpdates rows) final) (path : IndexPath) (row : TableRow)
    (newPath : IndexPath) (team : Team) (found : elementAt final.rows path = some row)
    (stays : path ∉ changes.filterMap leavingPath) (there : elementAt new newPath = some team)
    (old_row : newPath ∉ changes.filterMap arrivingPath) (same : row.objectID = team.objectID) :
    Fits onScreen newPath row team := by
  intro visible
  refine ⟨mirrors.filled newPath team there visible, fun cell present => ?_⟩
  obtain ⟨before, old_shown, before_at, old_at, shows, object, cells⟩ :=
    kept_row shown final advanced path row found
  by_cases updated : path ∈ changes.filterMap updatedPath
  · obtain ⟨change, change_in, at_path⟩ := List.mem_filterMap.mp updated
    obtain ⟨anObject, newIndexPath, rfl⟩ := updated_path_some change path at_path
    obtain ⟨other_path, other, place, other_at, other_same⟩ := reported.documented _ change_in
    cases place
    obtain rfl := Option.some.inj (before_at.symm.trans other_at)
    have equal := (mirrors.refreshed anObject path newIndexPath change_in).2.2 newPath team there
      (same.symm.trans (object.trans other_same)) visible
    rw [← equal, ← present, cells, if_pos updated]
  · rw [if_neg updated] at cells
    have unreported : before.objectID ∉ changes.filterMap changedObject := by
      intro listed
      obtain ⟨change, change_in, changed⟩ := List.mem_filterMap.mp listed
      rcases change_places old new change (reported.documented change change_in) before.objectID changed with
        ⟨_, other, other_at, other_same, leaves | refreshes⟩ | ⟨_, other, other_at, other_same, arrives⟩
      · obtain rfl := path_unique old reported.oldObjects _ _ _ _ other_at before_at other_same
        exact stays (List.mem_filterMap.mpr ⟨change, change_in, leaves⟩)
      · obtain rfl := path_unique old reported.oldObjects _ _ _ _ other_at before_at other_same
        exact updated (List.mem_filterMap.mpr ⟨change, change_in, refreshes⟩)
      · obtain rfl := path_unique new reported.newObjects _ _ _ _ other_at there
          (other_same.trans (object.symm.trans same))
        exact old_row (List.mem_filterMap.mpr ⟨change, change_in, arrives⟩)
    obtain rfl := reported.unchanged path newPath before team before_at there (object.symm.trans same) unreported
    exact shows.2 cell (cells ▸ present)

-- An updated row that stays on screen holds the cell that was reloaded for it.
theorem refreshed_shows (shown : Shows rows old) (reported : Reports old new changes) (final : UITableView)
    (advanced : Advanced new changes (beginUpdates rows) final)
    (fits : KeptFits onScreen new (changes.filterMap insertedSection) (changes.filterMap arrivingPath)
      (keptRows (changes.filterMap removedSection) (changes.filterMap leavingPath) final.rows))
    (anObject : Team) (path : IndexPath) (newIndexPath : Option IndexPath)
    (change_in : Change.object anObject (some path) .update newIndexPath ∈ changes) (cell : TeamCell)
    (configured : configureCell new path = some cell) (newPath : IndexPath) (team : Team)
    (there : elementAt new newPath = some team) (same : team.objectID = anObject.objectID)
    (visible : onScreen newPath = true) : configureCell new path = cellOf team := by
  have old_row : newPath ∉ changes.filterMap arrivingPath := by
    intro listed
    obtain ⟨other, other_in, arrives⟩ := List.mem_filterMap.mp listed
    obtain ⟨arrived, arrived_at, changed⟩ :=
      change_arrives old new other (reported.documented other other_in) newPath arrives
    obtain rfl := Option.some.inj (there.symm.trans arrived_at)
    have both := reported_once changes reported.once other _ other_in change_in team.objectID changed
      (congrArg some same.symm)
    rw [both] at arrives
    cases arrives
  have old_section : newPath.sectionIndex ∉ changes.filterMap insertedSection :=
    fun listed => old_row (reported.arrives newPath listed (by rw [there]; rfl))
  obtain ⟨otherPath, row, row_at, _, object, fitting⟩ :=
    kept_fits_at _ _ _ _ final.rows fits newPath team there old_section old_row
  obtain ⟨before, _, before_at, _, _, row_object, cells⟩ := kept_row shown final advanced otherPath row row_at
  obtain ⟨_, own, place, own_at, own_same⟩ := reported.documented _ change_in
  cases place
  obtain rfl := path_unique old reported.oldObjects _ _ _ _ before_at own_at
    (row_object.symm.trans (object.trans (same.trans own_same.symm)))
  have updated : otherPath ∈ changes.filterMap updatedPath := List.mem_filterMap.mpr ⟨_, change_in, rfl⟩
  rw [if_pos updated, configured] at cells
  rw [configured, (fitting visible).2 cell cells]

theorem mirrors_handled (mirrors : Mirrors onScreen rows new changes) :
    ∀ change ∈ changes, Handled new (beginUpdates rows).rows change := by
  intro change member
  cases change with
  | sectionInfo sectionIndex type => trivial
  | object anObject indexPath type newIndexPath =>
      cases type with
      | insert => trivial
      | delete => exact mirrors.undeleted anObject indexPath newIndexPath member
      | move => trivial
      | update =>
          rintro path rfl
          obtain ⟨was_shown, set, _⟩ := mirrors.refreshed anObject path newIndexPath member
          exact ⟨was_shown, set⟩

theorem mirrors_of_fits (shown : Shows rows old) (reported : Reports old new changes) (final : UITableView)
    (advanced : Advanced new changes (beginUpdates rows) final)
    (handled : ∀ change ∈ changes, Handled new (beginUpdates rows).rows change)
    (arrives : ∀ path team, elementAt new path = some team →
      path.sectionIndex ∈ changes.filterMap insertedSection ∨ path ∈ changes.filterMap arrivingPath →
        onScreen path = true → (cellOf team).isSome)
    (fits : KeptFits onScreen new (changes.filterMap insertedSection) (changes.filterMap arrivingPath)
      (keptRows (changes.filterMap removedSection) (changes.filterMap leavingPath) final.rows)) :
    Mirrors onScreen rows new changes where
  undeleted anObject indexPath newIndexPath listed := handled _ listed
  refreshed anObject path newIndexPath listed := by
    obtain ⟨was_shown, set⟩ := handled _ listed path rfl
    obtain ⟨cell, configured⟩ := Option.isSome_iff_exists.mp set
    exact ⟨was_shown, set,
      refreshed_shows shown reported final advanced fits anObject path newIndexPath listed cell configured⟩
  filled path team there visible := by
    by_cases fresh : path.sectionIndex ∈ changes.filterMap insertedSection ∨ path ∈ changes.filterMap arrivingPath
    · exact arrives path team there fresh visible
    · obtain ⟨_, _, _, _, _, fitting⟩ := kept_fits_at _ _ _ _ final.rows fits path team there
        (fun listed => fresh (.inl listed)) fun listed => fresh (.inr listed)
      exact (fitting visible).1

end Mirroring

section Samples

def brazil (wins : Int) : Team := ⟨0, some "brazil-flag", some "Brazil", some wins⟩

def mexico : Team := ⟨1, some "mexico-flag", some "Mexico", some 0⟩

def wenderland : Team := ⟨2, some "wenderland-flag", some "Wenderland", some 0⟩

def rowOf (team : Team) : TableRow := ⟨team.objectID, cellOf team⟩

theorem row_of_shows (team : Team) : RowShows (rowOf team) team := ⟨rfl, fun _ present => present⟩

end Samples

-- The delegate methods do not trap and the table shows the new results if and
-- only if no object is deleted and every update is of a row on screen whose old
-- path leads to what it is to show.
theorem world_cup_mirror_iff (onScreen : IndexPath → Bool) (old new : List (List Team)) (rows : List (List TableRow))
    (changes : List Change) (shown : Shows rows old) (reported : Reports old new changes) :
    (∃ after, updateTable onScreen new rows changes = some after ∧ Shows after new) ↔
      Mirrors onScreen rows new changes := by
  obtain ⟨returns, returned⟩ := changes_returned new old changes (beginUpdates rows) reported.documented
  constructor
  · rintro ⟨after, updated, shows⟩
    obtain ⟨final, told, ended⟩ := Option.bind_eq_some_iff.mp updated
    have handled := returned final told
    obtain ⟨same, told_again, advanced⟩ := returns handled
    obtain rfl := Option.some.inj (told.symm.trans told_again)
    obtain ⟨arrives, fits⟩ := (end_updates_reported shown reported final advanced).mp ⟨after, ended, shows⟩
    exact mirrors_of_fits shown reported final advanced handled arrives fits
  · intro mirrors
    have handled := mirrors_handled mirrors
    obtain ⟨final, told, advanced⟩ := returns handled
    have fits := kept_fits_of (changes.filterMap insertedSection) (changes.filterMap arrivingPath)
      (changes.filterMap removedSection) (changes.filterMap leavingPath) final.rows
      ((congrArg _ (advanced.objects.trans (shows_objects rows old shown))).trans reported.kept)
      (mirrors_fits shown reported mirrors final advanced)
    obtain ⟨after, ended, shows⟩ := (end_updates_reported shown reported final advanced).mpr
      ⟨fun path team there _ visible => mirrors.filled path team there visible, fits⟩
    exact ⟨after, by rw [updateTable, told]; exact ended, shows⟩

theorem win_and_new_section :
    ∃ after, updateTable (fun _ => true) [[brazil 1, mexico], [wenderland]] [[rowOf (brazil 0), rowOf mexico]]
      [.object (brazil 1) (some ⟨0, 0⟩) .update none, .sectionInfo 1 .insert,
        .object wenderland none .insert (some ⟨1, 0⟩)] = some after ∧
      Shows after [[brazil 1, mexico], [wenderland]] := by
  refine (world_cup_mirror_iff (fun _ => true) [[brazil 0, mexico]] _ _ _
    (.cons (.cons (row_of_shows _) (.cons (row_of_shows _) .nil)) .nil) ?_).mpr ?_
  · refine ⟨?_, by decide, by decide, by decide, rfl, ?_, ?_⟩
    · refine List.forall_mem_cons.mpr ⟨⟨_, _, rfl, rfl, rfl⟩, List.forall_mem_cons.mpr ⟨?_, ?_⟩⟩
      · exact Nat.lt_succ_self 1
      · exact List.forall_mem_singleton.mpr ⟨rfl, _, _, rfl, rfl, rfl⟩
    · rintro ⟨index, row⟩ listed there
      obtain rfl : index = 1 := List.mem_singleton.mp listed
      cases row with
      | zero => exact List.mem_singleton_self _
      | succ row => cases there
    · intro oldPath newPath before after old_at new_at
      have all : ∀ before ∈ [[brazil 0, mexico]].flatten, ∀ after ∈ [[brazil 1, mexico], [wenderland]].flatten,
        before.objectID = after.objectID → before.objectID ∉ [0, 2] → before = after := by decide
      exact all before (element_at_mem _ _ _ old_at) after (element_at_mem _ _ _ new_at)
  · refine ⟨fun anObject indexPath newIndexPath listed => ?_, fun anObject path newIndexPath listed => ?_, ?_⟩
    · simp at listed
    · have first : Change.object anObject (some path) .update newIndexPath =
          .object (brazil 1) (some ⟨0, 0⟩) .update none := by simpa using listed
      cases first
      refine ⟨rfl, rfl, fun newPath team there same _ => ?_⟩
      obtain rfl := path_unique _ (by decide) newPath ⟨0, 0⟩ team (brazil 1) there rfl same
      cases there
      rfl
    · intro path team there _
      have all : ∀ team ∈ [[brazil 1, mexico], [wenderland]].flatten, (cellOf team).isSome := by decide
      exact all team (element_at_mem _ _ _ there)

theorem delete_traps :
    Shows [[rowOf (brazil 0), rowOf mexico]] [[brazil 0, mexico]] ∧
      Reports [[brazil 0, mexico]] [[brazil 0]] [.object mexico (some ⟨0, 1⟩) .delete none] ∧
      updateTable (fun _ => true) [[brazil 0]] [[rowOf (brazil 0), rowOf mexico]]
        [.object mexico (some ⟨0, 1⟩) .delete none] = none := by
  refine ⟨.cons (.cons (row_of_shows _) (.cons (row_of_shows _) .nil)) .nil, ?_, rfl⟩
  refine ⟨?_, by decide, by decide, by decide, rfl, ?_, ?_⟩
  · exact List.forall_mem_singleton.mpr ⟨⟨_, _, rfl, rfl, rfl⟩, rfl⟩
  · exact fun path absent => nomatch absent
  · intro oldPath newPath before after old_at new_at
    have all : ∀ before ∈ [[brazil 0, mexico]].flatten, ∀ after ∈ [[brazil 0]].flatten,
      before.objectID = after.objectID → before.objectID ∉ [mexico.objectID] → before = after := by decide
    exact all before (element_at_mem _ _ _ old_at) after (element_at_mem _ _ _ new_at)

end CultivationMotain.WorldCup

import CultivationMotain.Foundation.IndexPath
import CultivationMotain.Library.BatchUpdates

set_option autoImplicit false

namespace CultivationMotain.WorldCup

open BatchUpdates Foundation

structure Team where
  objectID : Nat
  imageName : Option String
  teamName : Option String
  wins : Option Int
deriving DecidableEq, Repr

-- What a cell shows. The image is given by its name.
structure TeamCell where
  flagImageView : String
  teamLabel : String
  scoreLabel : String
deriving DecidableEq, Repr

-- none is a trap: an attribute that is not set is unwrapped.
def cellOf (team : Team) : Option TeamCell := do
  let imageName ← team.imageName
  let teamName ← team.teamName
  let wins ← team.wins
  some ⟨imageName, teamName, "Wins: " ++ toString wins⟩

-- Fetched results raise an exception for a path that they do not have.
def configureCell (results : List (List Team)) (path : IndexPath) : Option TeamCell :=
  (elementAt results path).bind cellOf

section Table

-- A row on screen has a cell.
structure TableRow where
  objectID : Nat
  cell : Option TeamCell
deriving DecidableEq, Repr

-- Inside a batch of updates the rows have the paths they had before it.
structure UITableView where
  rows : List (List TableRow)
  deletedRows : List IndexPath
  insertedRows : List IndexPath
  deletedSections : List Nat
  insertedSections : List Nat

def beginUpdates (rows : List (List TableRow)) : UITableView := ⟨rows, [], [], [], []⟩

def cellForRow (table : UITableView) (path : IndexPath) : Option TeamCell :=
  (elementAt table.rows path).bind TableRow.cell

def setCell (rows : List (List TableRow)) (path : IndexPath) (cell : TeamCell) : List (List TableRow) :=
  rows.modify path.sectionIndex fun items => items.modify path.row fun row => { row with cell := some cell }

variable (onScreen : IndexPath → Bool) (results : List (List Team))

-- A row that is on screen keeps its cell or gets one from cellForRowAt.
def displayRow (path : IndexPath) (row : TableRow) : Option TableRow :=
  if onScreen path then
    match row.cell with
    | some _ => some row
    | none => (configureCell results path).map fun cell => { row with cell := some cell }
  else some { row with cell := none }

def endRows (sectionIndex : Nat) (inserted : Nat → Bool) (kept : List TableRow) (items : List Team) :
    Option (List TableRow) :=
  splice inserted (fun row team => displayRow onScreen results ⟨sectionIndex, row⟩ ⟨team.objectID, none⟩)
    (fun row keptRow _ => displayRow onScreen results ⟨sectionIndex, row⟩ keptRow) 0 kept items

def keptRows {α : Type} (deletedSections : List Nat) (deletedRows : List IndexPath) (rows : List (List α)) :
    List (List α) :=
  (survivors deletedSections.contains rows 0).map fun pair =>
    (survivors (fun row => deletedRows.contains ⟨pair.2, row⟩) pair.1 0).map Prod.fst

-- Deletions are by the old paths and insertions by the new ones. The table asks
-- the data source for the new numbers of sections and rows, and raises an
-- exception unless the updates account for them.
def endUpdates (table : UITableView) : Option (List (List TableRow)) :=
  if table.deletedRows.all (fun path => (elementAt table.rows path).isSome) ∧
      table.deletedSections.all (fun index => index < table.rows.length) ∧
      table.insertedRows.all (fun path => (elementAt results path).isSome) ∧
      table.insertedSections.all (fun index => index < results.length) then
    splice table.insertedSections.contains
      (fun index items => endRows onScreen results index (fun _ => true) [] items)
      (fun index kept items =>
        endRows onScreen results index (fun row => table.insertedRows.contains ⟨index, row⟩) kept items)
      0 (keptRows table.deletedSections table.deletedRows table.rows) results
  else none

end Table

section Delegate

inductive NSFetchedResultsChangeType where
  | insert
  | delete
  | move
  | update
deriving DecidableEq, Repr

inductive Change where
  | object (anObject : Team) (indexPath : Option IndexPath) (type : NSFetchedResultsChangeType)
      (newIndexPath : Option IndexPath)
  | sectionInfo (sectionIndex : Nat) (type : NSFetchedResultsChangeType)

-- The results are already the new ones when the changes are reported. none is
-- a trap.
def didChangeObject (results : List (List Team)) (table : UITableView) (indexPath : Option IndexPath)
    (type : NSFetchedResultsChangeType) (newIndexPath : Option IndexPath) : Option UITableView :=
  match type with
  | .insert => do
      let path ← newIndexPath
      some { table with insertedRows := table.insertedRows ++ [path] }
  | .delete => do
      let path ← newIndexPath
      some { table with deletedRows := table.deletedRows ++ [path] }
  | .update => do
      let path ← indexPath
      let _ ← cellForRow table path
      let cell ← configureCell results path
      some { table with rows := setCell table.rows path cell }
  | .move => do
      let path ← indexPath
      let newPath ← newIndexPath
      some { table with
        deletedRows := table.deletedRows ++ [path]
        insertedRows := table.insertedRows ++ [newPath] }

def didChangeSection (table : UITableView) (sectionIndex : Nat) (type : NSFetchedResultsChangeType) : UITableView :=
  match type with
  | .insert => { table with insertedSections := table.insertedSections ++ [sectionIndex] }
  | .delete => { table with deletedSections := table.deletedSections ++ [sectionIndex] }
  | .move => table
  | .update => table

def didChange (results : List (List Team)) (table : UITableView) : Change → Option UITableView
  | .object _ indexPath type newIndexPath => didChangeObject results table indexPath type newIndexPath
  | .sectionInfo sectionIndex type => some (didChangeSection table sectionIndex type)

-- From controllerWillChangeContent to controllerDidChangeContent.
def updateTable (onScreen : IndexPath → Bool) (results : List (List Team)) (rows : List (List TableRow))
    (changes : List Change) : Option (List (List TableRow)) := do
  let table ← changes.foldlM (didChange results) (beginUpdates rows)
  endUpdates onScreen results table

end Delegate

end CultivationMotain.WorldCup

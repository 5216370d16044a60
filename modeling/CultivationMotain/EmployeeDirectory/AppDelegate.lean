import CultivationMotain.Foundation.Geometry
import CultivationMotain.Foundation.JSONValue
import Mathlib.Data.List.Basic

set_option autoImplicit false

namespace CultivationMotain.EmployeeDirectory

open Foundation

abbrev NSDate := Rat

structure Sale where
  amount : Nat
deriving DecidableEq, Repr

structure EmployeePicture where
  picture : NSData
deriving DecidableEq, Repr

-- The data model gives vacationDays sixteen bits. An employee is kept with its
-- picture and its sales.
structure Employee where
  guid : String
  active : Bool
  name : String
  vacationDays : Int16
  department : String
  startDate : NSDate
  email : String
  phone : String
  address : String
  about : String
  pictureThumbnail : NSData
  picture : Option EmployeePicture
  sales : List Sale

-- sales and pictures are those of no employee.
structure Store where
  employees : List Employee
  sales : List Sale
  pictures : List EmployeePicture

def emptyStore : Store := ⟨[], [], []⟩

-- succeeds is the outcome of each request to the store, batchDelete what the
-- deletion of all employees makes of it, drawn an image at another size as JPEG.
structure System where
  succeeds : Nat → Bool
  batchDelete : Store → Store
  resource : String → String → Option NSData
  jsonObject : NSData → Option JSONValue
  date : String → Option NSDate
  imageSize : NSData → Option CGSize
  drawn : NSData → CGSize → Option NSData
  random : Nat → Nat

-- inserted are the objects registered since the last save or reset. requests and
-- draws count the requests to the store and the random numbers; removed and
-- imported are ghosts, the totals of the counts that were printed.
structure Context where
  store : Store
  inserted : List Employee
  requests : Nat
  draws : Nat
  removed : Nat
  imported : Nat

def addSalesRecords : Bool := true

variable (system : System)

section Saving

def reset (context : Context) : Context := { context with inserted := [] }

-- None is the abort.
def saveContext (context : Context) : Option Context :=
  if context.inserted.isEmpty then some context
  else if system.succeeds context.requests then
    some { context with
      store := { context.store with employees := context.store.employees ++ context.inserted }
      inserted := []
      requests := context.requests + 1 }
  else none

end Saving

section Employees

def arc4random_uniform (draw bound : Nat) : Nat := system.random draw % bound

def imageDataScaledToHeight (imageData : NSData) (height : CGFloat) : Option NSData := do
  let size ← system.imageSize imageData
  let scaleFactor := height / size.height
  let newWidth := size.width * scaleFactor
  system.drawn imageData ⟨newWidth, height⟩

-- The sales of an employee, from the given draw on.
def addSalesRecordsToEmployee (draws : Nat) : List Sale :=
  let numberOfSales := 1000 + arc4random_uniform system draws 5000
  (List.range (numberOfSales + 1)).map fun index => ⟨3000 + arc4random_uniform system (draws + 1 + index) 20000⟩

def componentsSeparatedByDot (text : String) : List String := (text.toList.splitOn '.').map String.ofList

-- None is a trap of a cast, an index or an unwrapping.
def employeeOf (jsonDic : JSONValue) (sales : List Sale) : Option Employee := do
  let jsonDictionary ← jsonDic.asDictionary
  let guid ← (jsonDictionary.lookup "guid").bind JSONValue.asString
  let active ← (jsonDictionary.lookup "active").bind JSONValue.asBool
  let name ← (jsonDictionary.lookup "name").bind JSONValue.asString
  let vacationDays ← (jsonDictionary.lookup "vacationDays").bind JSONValue.asInt
  let department ← (jsonDictionary.lookup "department").bind JSONValue.asString
  let startDate ← (jsonDictionary.lookup "startDate").bind JSONValue.asString
  let email ← (jsonDictionary.lookup "email").bind JSONValue.asString
  let phone ← (jsonDictionary.lookup "phone").bind JSONValue.asString
  let address ← (jsonDictionary.lookup "address").bind JSONValue.asString
  let about ← (jsonDictionary.lookup "about").bind JSONValue.asString
  let picture ← (jsonDictionary.lookup "picture").bind JSONValue.asString
  let pictureComponents := componentsSeparatedByDot picture
  let pictureFileName ← pictureComponents[0]?
  let pictureFileExtension ← pictureComponents[1]?
  let pictureData ← system.resource pictureFileName pictureFileExtension
  let startDate ← system.date startDate
  let pictureThumbnail ← imageDataScaledToHeight system pictureData 120
  some {
    guid := guid
    active := active
    name := name
    vacationDays := Int16.ofInt vacationDays
    department := department
    startDate := startDate
    email := email
    phone := phone
    address := address
    about := about
    pictureThumbnail := pictureThumbnail
    picture := some ⟨pictureData⟩
    sales := sales }

def insertEmployee (jsonDic : JSONValue) (context : Context) : Option Context := do
  let sales := if addSalesRecords then addSalesRecordsToEmployee system context.draws else []
  let employee ← employeeOf system jsonDic sales
  some { context with
    inserted := context.inserted ++ [employee]
    draws := if addSalesRecords then context.draws + 1 + sales.length else context.draws }

end Employees

section Import

-- The loop over the array, with the counter it leaves.
def importRecords (records : Int) : List JSONValue → Nat → Context → Option (Nat × Context)
  | [], counter, context => some (counter, context)
  | jsonDic :: rest, counter, context => do
      let context ← insertEmployee system jsonDic context
      if (counter + 1 : Int) = records then some (counter + 1, context)
      else if (counter + 1) % 20 = 0 then
        let context ← saveContext system context
        importRecords records rest (counter + 1) (reset context)
      else importRecords records rest (counter + 1) context

def importJSONSeedData (records : Int) (context : Context) : Option Context := do
  let jsonData ← system.resource "seed" "json"
  let jsonArray ← (← system.jsonObject jsonData).asArray
  let (counter, context) ← importRecords system records jsonArray 0 context
  let context ← saveContext system context
  some { reset context with imported := context.imported + counter }

-- None is a count that failed.
def count (number : Nat) (context : Context) : Option Nat × Context :=
  (if system.succeeds context.requests then some number else none, { context with requests := context.requests + 1 })

def employeesFetched (context : Context) : List Employee := context.store.employees ++ context.inserted

def salesFetched (context : Context) : List Sale :=
  context.store.sales ++ (employeesFetched context).flatMap Employee.sales

def importRequired (amountToImport : Int) (context : Context) : Bool × Context :=
  let (employeeCount, context) := count system (employeesFetched context).length context
  if employeeCount.map Int.ofNat ≠ some amountToImport then (true, context)
  else if addSalesRecords then
    let (salesCount, context) := count system (salesFetched context).length context
    (salesCount == some 0, context)
  else (false, context)

def deleteEmployees (context : Context) : Option Context :=
  if system.succeeds context.requests then
    some { context with
      store := system.batchDelete context.store
      requests := context.requests + 1
      removed := context.removed + context.store.employees.length }
  else none

def importJSONSeedDataIfNeeded (amountToImport : Int) (context : Context) : Option Context :=
  let (required, context) := importRequired system amountToImport context
  if required then do
    let context ← deleteEmployees system context
    let context ← saveContext system context
    let records := max 0 (min 500 amountToImport)
    importJSONSeedData system records context
  else some context

end Import

end CultivationMotain.EmployeeDirectory

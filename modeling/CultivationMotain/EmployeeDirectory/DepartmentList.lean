import CultivationMotain.EmployeeDirectory.AppDelegate
import CultivationMotain.Library.Tally
import Mathlib.Data.List.Perm.Basic

set_option autoImplicit false

namespace CultivationMotain.EmployeeDirectory

open Tally

inductive FetchedProperty where
  | attribute (name : String)
  | expression (name function keyPath : String)
deriving DecidableEq, Repr

structure NSFetchRequest where
  entityName : String
  propertiesToFetch : List FetchedProperty
  propertiesToGroupBy : List String
  dictionaryResultType : Bool
deriving DecidableEq, Repr

inductive FetchedValue where
  | string (text : String)
  | number (value : Nat)
deriving DecidableEq, Repr

-- A dictionary is the list of its members.
inductive FetchedObject where
  | employee (object : Employee)
  | dictionary (members : List (String × FetchedValue))

abbrev DepartmentDictionary := List (String × String)

-- iterated is the order in which a loop takes the members of a dictionary.
structure ManagedContext where
  fetch : NSFetchRequest → Except String (List FetchedObject)
  iterated : Counts String → List (String × Nat)

variable (context : ManagedContext)

section Slow

def employeesRequest : NSFetchRequest := ⟨"Employee", [], [], false⟩

def FetchedObject.asEmployee : FetchedObject → Option Employee
  | .employee object => some object
  | .dictionary _ => none

def countDepartment (uniqueDepartments : Counts String) (employee : Employee) : Counts String :=
  match uniqueDepartments.lookup employee.department with
  | some employeeDepartmentCount => uniqueDepartments.insert employee.department (employeeDepartmentCount + 1)
  | none => uniqueDepartments.insert employee.department 1

def departmentDictionary (department : String) (headCount : Nat) : DepartmentDictionary :=
  [("department", department), ("headCount", toString headCount)]

-- None is the trap of a cast.
def totalEmployeesPerDepartment : Option (List DepartmentDictionary) :=
  match context.fetch employeesRequest with
  | .error _ => some []
  | .ok fetchResults => do
      let employees ← fetchResults.mapM FetchedObject.asEmployee
      let uniqueDepartments := employees.foldl countDepartment ∅
      some ((context.iterated uniqueDepartments).map fun (department, headCount) =>
        departmentDictionary department headCount)

end Slow

section Fast

def headCountRequest : NSFetchRequest :=
  ⟨"Employee", [.attribute "department", .expression "headCount" "count:" "department"], ["department"], true⟩

def FetchedValue.asString : FetchedValue → Option String
  | .string text => some text
  | .number _ => none

def FetchedObject.asStrings : FetchedObject → Option DepartmentDictionary
  | .employee _ => none
  | .dictionary members => members.mapM fun (key, value) => value.asString.map (key, ·)

def totalEmployeesPerDepartmentFast : Option (List DepartmentDictionary) :=
  match context.fetch headCountRequest with
  | .error _ => some []
  | .ok fetchResults => fetchResults.mapM FetchedObject.asStrings

end Fast

section Totals

variable (employees : List Employee)

def departments : List String := employees.map Employee.department

def headCounts : List (String × Nat) :=
  (departments employees).dedup.map fun department => (department, (departments employees).count department)

-- The store holds the employees, and groups and counts them itself when asked to.
structure Holds : Prop where
  fetched : ∃ fetched : List Employee, context.fetch employeesRequest = .ok (fetched.map .employee) ∧
    fetched.Perm employees
  grouped : ∃ fetched, context.fetch headCountRequest = .ok fetched ∧
    fetched.Perm ((headCounts employees).map fun (department, headCount) =>
      .dictionary [("department", .string department), ("headCount", .number headCount)])
  iterated : ∀ counts, (context.iterated counts).Perm (counts.entries.map fun entry => (entry.1, entry.2))

def totals : List DepartmentDictionary :=
  (headCounts employees).map fun (department, headCount) => departmentDictionary department headCount

def BothTotal : Prop :=
  ∃ slow fast, totalEmployeesPerDepartment context = some slow ∧ totalEmployeesPerDepartmentFast context = some fast ∧
    slow.Perm (totals employees) ∧ fast.Perm (totals employees)

theorem count_department_tally : employees.foldl countDepartment ∅ = tally (departments employees) := by
  rw [tally, departments, List.foldl_map]
  rfl

theorem cast_employees : (employees.map FetchedObject.employee).mapM FetchedObject.asEmployee = some employees := by
  induction employees with
  | nil => rfl
  | cons employee rest ih =>
      rw [List.map_cons, List.mapM_cons, ih]
      rfl

theorem head_counts_perm (fetched : List Employee) (same : fetched.Perm employees) :
    (headCounts fetched).Perm (headCounts employees) := by
  have grouped : (departments fetched).Perm (departments employees) := same.map _
  have counted : ∀ department, (departments fetched).count department = (departments employees).count department :=
    fun department => grouped.count_eq department
  simp only [headCounts, counted]
  exact grouped.dedup.map _

theorem iterated_head_counts
    (iterated : ∀ counts, (context.iterated counts).Perm (counts.entries.map fun entry => (entry.1, entry.2))) :
    (context.iterated (tally (departments employees))).Perm (headCounts employees) := by
  have entries := (tally_entries (departments employees)).map fun entry => (entry.1, entry.2)
  rw [List.map_map] at entries
  exact (iterated _).trans entries

-- The loop in memory is right whatever order it takes employees and departments in.
theorem total_employees_per_department (holds : Holds context employees) :
    ∃ slow, totalEmployeesPerDepartment context = some slow ∧ slow.Perm (totals employees) := by
  obtain ⟨fetched, answered, same⟩ := holds.fetched
  refine ⟨(context.iterated (tally (departments fetched))).map fun (department, headCount) =>
    departmentDictionary department headCount, ?_, ?_⟩
  · rw [totalEmployeesPerDepartment, answered]
    simp only [cast_employees, count_department_tally]
    rfl
  · have counted := iterated_head_counts context fetched holds.iterated
    exact (counted.trans (head_counts_perm employees fetched same)).map _

theorem map_m_none {α β : Type} (cast : α → Option β) (elements : List α) (element : α) (member : element ∈ elements)
    (refused : cast element = none) : elements.mapM cast = none := by
  induction elements with
  | nil => cases member
  | cons first rest ih =>
      rw [List.mapM_cons]
      rcases List.mem_cons.mp member with rfl | later
      · rw [refused]
        rfl
      · rw [ih later]
        cases cast first <;> rfl

-- The rows hold a number each, which the cast to strings refuses.
theorem fast_traps (holds : Holds context employees) (employee : Employee) (member : employee ∈ employees) :
    totalEmployeesPerDepartmentFast context = none := by
  obtain ⟨fetched, answered, same⟩ := holds.grouped
  have counted : (employee.department, (departments employees).count employee.department) ∈ headCounts employees :=
    List.mem_map_of_mem (List.mem_dedup.mpr (List.mem_map_of_mem member))
  rw [totalEmployeesPerDepartmentFast, answered]
  exact map_m_none _ fetched _ (same.mem_iff.mpr (List.mem_map_of_mem counted)) rfl

theorem fast_empty (holds : Holds context []) : totalEmployeesPerDepartmentFast context = some [] := by
  obtain ⟨fetched, answered, same⟩ := holds.grouped
  rw [totalEmployeesPerDepartmentFast, answered, same.eq_nil]
  rfl

theorem both_total_iff (holds : Holds context employees) : BothTotal context employees ↔ employees = [] := by
  constructor
  · rintro ⟨slow, fast, -, returned, -, -⟩
    by_contra some_employee
    obtain ⟨employee, member⟩ := List.exists_mem_of_ne_nil employees some_employee
    rw [fast_traps context employees holds employee member] at returned
    cases returned
  · rintro rfl
    obtain ⟨slow, returned, same⟩ := total_employees_per_department context [] holds
    exact ⟨slow, [], returned, fast_empty context holds, same, .nil⟩

def emptyContext : ManagedContext where
  fetch _ := .ok []
  iterated counts := counts.entries.map fun entry => (entry.1, entry.2)

theorem nobody_total : BothTotal emptyContext [] :=
  (both_total_iff emptyContext [] ⟨⟨[], rfl, .nil⟩, ⟨[], rfl, .nil⟩, fun _ => .refl _⟩).mpr rfl

def agnes : Employee := ⟨"5a1f", true, "Agnes", 12, "Sales", 0, "", "", "", "", [], none, []⟩

def agnesContext : ManagedContext where
  fetch request :=
    if request = employeesRequest then .ok [.employee agnes]
    else .ok [.dictionary [("department", .string "Sales"), ("headCount", .number 1)]]
  iterated counts := counts.entries.map fun entry => (entry.1, entry.2)

theorem one_employee_traps :
    ¬ ∀ (context : ManagedContext) (employees : List Employee), Holds context employees →
      BothTotal context employees := by
  intro totals
  have holds : Holds agnesContext [agnes] := ⟨⟨[agnes], rfl, .refl _⟩, ⟨_, rfl, .refl _⟩, fun _ => .refl _⟩
  obtain ⟨slow, fast, -, returned, -, -⟩ := totals agnesContext [agnes] holds
  cases returned

end Totals

end CultivationMotain.EmployeeDirectory

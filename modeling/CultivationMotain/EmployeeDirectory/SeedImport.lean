import CultivationMotain.EmployeeDirectory.AppDelegate
import Mathlib.Data.List.Forall2

set_option autoImplicit false

namespace CultivationMotain.EmployeeDirectory

open Foundation

variable (system : System)

section Records

def textKeys : List String :=
  ["guid", "name", "department", "startDate", "email", "phone", "address", "about", "picture"]

def Pictured (text : String) (pictureData : NSData) : Prop :=
  ∃ file suffix more, componentsSeparatedByDot text = file :: suffix :: more ∧
    system.resource file suffix = some pictureData

structure WellFormed (record : JSONValue) (members : List (String × JSONValue)) : Prop where
  dictionary : record = .dictionary members
  texts : ∀ key ∈ textKeys, ∃ text, members.lookup key = some (.string text)
  active : ∃ value, members.lookup "active" = some (.bool value)
  vacationDays : ∃ days : Int16, members.lookup "vacationDays" = some (.number days.toInt)
  startDate : ∀ text, members.lookup "startDate" = some (.string text) → (system.date text).isSome
  picture : ∀ text, members.lookup "picture" = some (.string text) →
    ∃ pictureData, Pictured system text pictureData ∧ (imageDataScaledToHeight system pictureData 120).isSome

-- The members of a record that an employee holds unchanged.
def attributes (employee : Employee) : List (String × JSONValue) :=
  [("guid", .string employee.guid), ("active", .bool employee.active), ("name", .string employee.name),
    ("vacationDays", .number employee.vacationDays.toInt), ("department", .string employee.department),
    ("email", .string employee.email), ("phone", .string employee.phone), ("address", .string employee.address),
    ("about", .string employee.about)]

structure Entered (record : JSONValue) (employee : Employee) : Prop where
  attributes : ∃ members, record = .dictionary members ∧
    ∀ key value, (key, value) ∈ attributes employee → members.lookup key = some value
  startDate : ∃ members text, record = .dictionary members ∧ members.lookup "startDate" = some (.string text) ∧
    system.date text = some employee.startDate
  picture : ∃ members text pictureData, record = .dictionary members ∧
    members.lookup "picture" = some (.string text) ∧ Pictured system text pictureData ∧
    employee.picture = some ⟨pictureData⟩ ∧
    imageDataScaledToHeight system pictureData 120 = some employee.pictureThumbnail

theorem as_int_number (value : Int) : (JSONValue.number value).asInt = some value := by
  simp [JSONValue.asInt]

theorem bind_value {α β : Type} {first : Option α} {value : α} {next : α → Option β} {result : Option β}
    (has : first = some value) (rest : next value = result) : (first >>= next) = result := by
  rw [has]
  exact rest

theorem text_at {members : List (String × JSONValue)} {key text : String}
    (has : members.lookup key = some (.string text)) : (members.lookup key).bind JSONValue.asString = some text := by
  rw [has]
  rfl

theorem well_formed_entered (record : JSONValue) (members : List (String × JSONValue)) (sales : List Sale)
    (formed : WellFormed system record members) :
    ∃ employee, employeeOf system record sales = some employee ∧ employee.sales = sales ∧
      Entered system record employee := by
  obtain ⟨rfl, texts, ⟨active, hasActive⟩, ⟨days, hasDays⟩, dated, pictured⟩ := formed
  obtain ⟨guid, hasGuid⟩ := texts "guid" (by decide)
  obtain ⟨name, hasName⟩ := texts "name" (by decide)
  obtain ⟨department, hasDepartment⟩ := texts "department" (by decide)
  obtain ⟨startDate, hasStartDate⟩ := texts "startDate" (by decide)
  obtain ⟨email, hasEmail⟩ := texts "email" (by decide)
  obtain ⟨phone, hasPhone⟩ := texts "phone" (by decide)
  obtain ⟨address, hasAddress⟩ := texts "address" (by decide)
  obtain ⟨about, hasAbout⟩ := texts "about" (by decide)
  obtain ⟨picture, hasPicture⟩ := texts "picture" (by decide)
  obtain ⟨date, parsed⟩ := Option.isSome_iff_exists.mp (dated startDate hasStartDate)
  obtain ⟨pictureData, ⟨file, suffix, more, components, found⟩, scales⟩ := pictured picture hasPicture
  obtain ⟨thumbnail, scaled⟩ := Option.isSome_iff_exists.mp scales
  let employee : Employee :=
    ⟨guid, active, name, days, department, date, email, phone, address, about, thumbnail, some ⟨pictureData⟩, sales⟩
  refine ⟨employee, ?_, rfl, ?_⟩
  · have truth : (members.lookup "active").bind JSONValue.asBool = some active := by rw [hasActive]; rfl
    have whole : (members.lookup "vacationDays").bind JSONValue.asInt = some days.toInt := by
      rw [hasDays]
      exact as_int_number days.toInt
    refine bind_value rfl (bind_value (text_at hasGuid) (bind_value truth (bind_value (text_at hasName) ?_)))
    refine bind_value whole (bind_value (text_at hasDepartment) (bind_value (text_at hasStartDate) ?_))
    refine bind_value (text_at hasEmail) (bind_value (text_at hasPhone) (bind_value (text_at hasAddress) ?_))
    refine bind_value (text_at hasAbout) (bind_value (text_at hasPicture) ?_)
    have first : (componentsSeparatedByDot picture)[0]? = some file := by rw [components]; rfl
    have second : (componentsSeparatedByDot picture)[1]? = some suffix := by rw [components]; rfl
    refine bind_value first (bind_value second (bind_value found (bind_value parsed (bind_value scaled ?_))))
    rw [Int16.ofInt_toInt]
  · exact {
      attributes := by
        refine ⟨members, rfl, ?_⟩
        intro key value member
        simp only [attributes, List.mem_cons, Prod.mk.injEq, List.not_mem_nil, or_false] at member
        rcases member with ⟨rfl, rfl⟩ | ⟨rfl, rfl⟩ | ⟨rfl, rfl⟩ | ⟨rfl, rfl⟩ | ⟨rfl, rfl⟩ | ⟨rfl, rfl⟩ | ⟨rfl, rfl⟩ |
          ⟨rfl, rfl⟩ | ⟨rfl, rfl⟩ <;> assumption
      startDate := ⟨members, startDate, rfl, hasStartDate, parsed⟩
      picture := ⟨members, picture, pictureData, rfl, hasPicture, ⟨file, suffix, more, components, found⟩, rfl,
        scaled⟩ }

end Records

section Batches

-- Where the batches are saved cannot be told from what is fetched.
structure Grown (before after : Context) (employees : List Employee) : Prop where
  fetched : employeesFetched after = employeesFetched before ++ employees
  sales : after.store.sales = before.store.sales
  pictures : after.store.pictures = before.store.pictures
  removed : after.removed = before.removed
  imported : after.imported = before.imported

theorem Grown.refl (context : Context) : Grown context context [] where
  fetched := (List.append_nil _).symm
  sales := rfl
  pictures := rfl
  removed := rfl
  imported := rfl

theorem Grown.trans {first second third : Context} {employees others : List Employee}
    (grown : Grown first second employees) (more : Grown second third others) :
    Grown first third (employees ++ others) where
  fetched := by rw [more.fetched, grown.fetched, List.append_assoc]
  sales := more.sales.trans grown.sales
  pictures := more.pictures.trans grown.pictures
  removed := more.removed.trans grown.removed
  imported := more.imported.trans grown.imported

theorem save_reset (context : Context) (succeed : ∀ request, system.succeeds request = true) :
    ∃ saved, saveContext system context = some saved ∧ saved.inserted = [] ∧ Grown context (reset saved) [] := by
  by_cases unchanged : context.inserted = []
  · refine ⟨context, by rw [saveContext, unchanged]; rfl, unchanged, ?_⟩
    exact {
      fetched := by simp [employeesFetched, reset, unchanged]
      sales := rfl
      pictures := rfl
      removed := rfl
      imported := rfl }
  · refine ⟨_, by rw [saveContext, if_neg (by simpa using unchanged), if_pos (succeed _)], rfl, ?_⟩
    exact {
      fetched := by simp [employeesFetched, reset]
      sales := rfl
      pictures := rfl
      removed := rfl
      imported := rfl }

structure Made (record : JSONValue) (employee : Employee) : Prop where
  entered : Entered system record employee
  sold : employee.sales ≠ []

theorem insert_made (record : JSONValue) (members : List (String × JSONValue)) (context : Context)
    (formed : WellFormed system record members) :
    ∃ inserted employee, insertEmployee system record context = some inserted ∧ Made system record employee ∧
      Grown context inserted [employee] := by
  obtain ⟨employee, read, sold, entered⟩ :=
    well_formed_entered system record members (addSalesRecordsToEmployee system context.draws) formed
  refine ⟨_, employee, bind_value read rfl, ⟨entered, ?_⟩, ?_⟩
  · rw [sold]
    simp [addSalesRecordsToEmployee]
  · exact {
      fetched := by simp [employeesFetched]
      sales := rfl
      pictures := rfl
      removed := rfl
      imported := rfl }

-- How many records the loop takes when its counter is as given: it stops where
-- the counter comes to equal the limit, and so not at all beyond it.
def taken (records : Int) (counter length : Nat) : Nat :=
  if counter < records then min (records - counter).toNat length else length

theorem taken_last (records : Int) (counter length : Nat) (last : (counter + 1 : Int) = records) :
    taken records counter (length + 1) = 1 := by
  unfold taken
  split <;> omega

theorem taken_next (records : Int) (counter length : Nat) (more : (counter + 1 : Int) ≠ records) :
    taken records counter (length + 1) = taken records (counter + 1) length + 1 := by
  unfold taken
  split <;> split <;> omega

theorem import_records_next (records : Int) (record : JSONValue) (rest : List JSONValue) (counter : Nat)
    (context inserted : Context) (succeed : ∀ request, system.succeeds request = true)
    (inserts : insertEmployee system record context = some inserted) (more : (counter + 1 : Int) ≠ records) :
    ∃ next, importRecords system records (record :: rest) counter context =
        importRecords system records rest (counter + 1) next ∧ Grown inserted next [] := by
  by_cases full : (counter + 1) % 20 = 0
  · obtain ⟨saved, saves, -, grown⟩ := save_reset system inserted succeed
    refine ⟨reset saved, ?_, grown⟩
    refine bind_value inserts ?_
    rw [if_neg more, if_pos full]
    exact bind_value saves rfl
  · refine ⟨inserted, ?_, .refl inserted⟩
    refine bind_value inserts ?_
    rw [if_neg more, if_neg full]

-- By induction on the records: the counter runs ahead of the records taken.
theorem import_records_grown (records : Int) (seed : List JSONValue) (counter : Nat) (context : Context)
    (succeed : ∀ request, system.succeeds request = true)
    (formed : ∀ record ∈ seed, ∃ members, WellFormed system record members) :
    ∃ final employees, importRecords system records seed counter context =
        some (counter + taken records counter seed.length, final) ∧
      List.Forall₂ (Made system) (seed.take (taken records counter seed.length)) employees ∧
      Grown context final employees := by
  induction seed generalizing counter context with
  | nil =>
      have none_taken : taken records counter 0 = 0 := by
        unfold taken
        split <;> omega
      exact ⟨context, [], by rw [List.length_nil, none_taken]; rfl, by rw [List.take_nil]; exact .nil, .refl context⟩
  | cons record rest ih =>
      obtain ⟨members, formed_first⟩ := formed record List.mem_cons_self
      obtain ⟨inserted, employee, inserts, made, grown⟩ := insert_made system record members context formed_first
      by_cases last : (counter + 1 : Int) = records
      · refine ⟨inserted, [employee], ?_, ?_, grown⟩
        · rw [List.length_cons, taken_last records counter rest.length last]
          refine bind_value inserts ?_
          rw [if_pos last]
        · rw [List.length_cons, taken_last records counter rest.length last, List.take_succ_cons, List.take_zero]
          exact .cons made .nil
      · obtain ⟨next, continues, kept⟩ :=
          import_records_next system records record rest counter context inserted succeed inserts last
        obtain ⟨final, employees, ran, all_made, more⟩ :=
          ih (counter + 1) next fun other later => formed other (List.mem_cons_of_mem _ later)
        refine ⟨final, employee :: employees, ?_, ?_, (grown.trans kept).trans more⟩
        · rw [continues, ran, List.length_cons, taken_next records counter rest.length last, Nat.add_assoc,
            Nat.add_comm 1]
        · rw [List.length_cons, taken_next records counter rest.length last, List.take_succ_cons]
          exact .cons made all_made

-- What the bundle and the store are taken to be: there is a seed to import, and
-- no request fails.
structure Works (seed : List JSONValue) : Prop where
  resource : ∃ jsonData, system.resource "seed" "json" = some jsonData ∧
    system.jsonObject jsonData = some (.array seed)
  formed : ∀ record ∈ seed, ∃ members, WellFormed system record members
  succeeds : ∀ request, system.succeeds request = true

theorem import_seed_grown (seed : List JSONValue) (records : Int) (context : Context) (works : Works system seed)
    (fresh : context.inserted = []) :
    ∃ final employees, importJSONSeedData system records context = some final ∧
      List.Forall₂ (Made system) (seed.take (taken records 0 seed.length)) employees ∧
      final.inserted = [] ∧
      final.store = ⟨context.store.employees ++ employees, context.store.sales, context.store.pictures⟩ ∧
      final.removed = context.removed ∧ final.imported = context.imported + taken records 0 seed.length := by
  obtain ⟨⟨jsonData, found, decoded⟩, formed, succeeds⟩ := works
  obtain ⟨read, employees, ran, all_made, grown⟩ :=
    import_records_grown system records seed 0 context succeeds formed
  obtain ⟨saved, saves, -, kept⟩ := save_reset system read succeeds
  have whole := grown.trans kept
  have stored : saved.store.employees = context.store.employees ++ employees := by
    have fetched := whole.fetched
    simpa [employeesFetched, reset, fresh] using fetched
  have sales : saved.store.sales = context.store.sales := whole.sales
  have pictures : saved.store.pictures = context.store.pictures := whole.pictures
  have imported : saved.imported = context.imported := whole.imported
  refine ⟨_, employees, bind_value found (bind_value decoded (bind_value rfl (bind_value ran (bind_value saves rfl)))),
    all_made, rfl, ?_, whole.removed, ?_⟩
  · rw [← stored, ← sales, ← pictures]
    rfl
  · rw [← imported, Nat.zero_add]

end Batches

section Import

structure FirstImported (seed : List JSONValue) (records : Nat) (store : Store) : Prop where
  employees : List.Forall₂ (Entered system) (seed.take (min records seed.length)) store.employees
  sales : store.sales = []
  pictures : store.pictures = []

theorem taken_from_start (records length : Nat) :
    taken records 0 length = if records = 0 then length else min records length := by
  unfold taken
  split <;> split <;> omega

theorem import_first_records_iff (seed : List JSONValue) (records : Nat) (context : Context)
    (works : Works system seed) (fresh : context.inserted = []) (empty : context.store = emptyStore) :
    (∃ final, importJSONSeedData system records context = some final ∧
      FirstImported system seed records final.store) ↔ (records ≠ 0 ∨ seed = []) := by
  obtain ⟨final, employees, imports, all_made, -, stored, -, -⟩ :=
    import_seed_grown system seed records context works fresh
  rw [empty] at stored
  rw [taken_from_start] at all_made
  constructor
  · rintro ⟨other, imports', first⟩
    obtain rfl := Option.some.inj (imports.symm.trans imports')
    by_contra neither
    obtain ⟨unlimited, some_record⟩ := not_or.mp neither
    obtain rfl := not_not.mp unlimited
    have none_entered := first.employees.length_eq
    have all_entered := all_made.length_eq
    rw [if_pos rfl, List.take_length] at all_entered
    rw [Nat.zero_min, List.take_zero, stored] at none_entered
    have no_record : seed.length = 0 := all_entered.trans none_entered.symm
    exact some_record (List.length_eq_zero_iff.mp no_record)
  · intro condition
    have limited : seed.take (if records = 0 then seed.length else min records seed.length) =
        seed.take (min records seed.length) := by
      rcases condition with some_records | rfl
      · rw [if_neg some_records]
      · rw [List.take_nil, List.take_nil]
    rw [limited] at all_made
    exact ⟨final, imports, stored ▸ all_made.imp fun _ _ made => made.entered, by rw [stored]; rfl,
      by rw [stored]; rfl⟩

def beatriceEntry : List (String × JSONValue) :=
  [("guid", .string "5a1f"), ("active", .bool true), ("picture", .string "face01.jpg"), ("name", .string "Beatrice"),
    ("vacationDays", .number 12), ("department", .string "Sales"), ("startDate", .string "1979-09-05"),
    ("email", .string "beatrice@example.com"), ("phone", .string "555"), ("address", .string "1 Main Street"),
    ("about", .string "About")]

-- One record more than a batch.
def beatriceSeed : List JSONValue := List.replicate 21 (.dictionary beatriceEntry)

-- A bundle in which every file is the seed and an image.
def beatriceSystem : System where
  succeeds _ := true
  batchDelete store := { store with employees := [] }
  resource _ _ := some []
  jsonObject _ := some (.array beatriceSeed)
  date _ := some 0
  imageSize _ := some ⟨200, 100⟩
  drawn imageData _ := some imageData
  random _ := 0

def launched : Context := ⟨emptyStore, [], 0, 0, 0, 0⟩

theorem beatrice_formed : WellFormed beatriceSystem (.dictionary beatriceEntry) beatriceEntry where
  dictionary := rfl
  texts := by
    simp only [textKeys, List.forall_mem_cons]
    exact ⟨⟨_, rfl⟩, ⟨_, rfl⟩, ⟨_, rfl⟩, ⟨_, rfl⟩, ⟨_, rfl⟩, ⟨_, rfl⟩, ⟨_, rfl⟩, ⟨_, rfl⟩, ⟨_, rfl⟩,
      List.forall_mem_nil _⟩
  active := ⟨_, rfl⟩
  vacationDays := ⟨12, rfl⟩
  startDate _ _ := rfl
  picture := by
    intro text has
    obtain rfl : "face01.jpg" = text := JSONValue.string.inj (Option.some.inj has)
    exact ⟨[], ⟨"face01", "jpg", [], by decide, rfl⟩, rfl⟩

theorem beatrice_works : Works beatriceSystem beatriceSeed where
  resource := ⟨[], rfl, rfl⟩
  formed record member := by
    obtain rfl := List.eq_of_mem_replicate member
    exact ⟨beatriceEntry, beatrice_formed⟩
  succeeds _ := rfl

theorem import_beatrice :
    ∃ final, importJSONSeedData beatriceSystem 21 launched = some final ∧
      FirstImported beatriceSystem beatriceSeed 21 final.store :=
  (import_first_records_iff beatriceSystem beatriceSeed 21 launched beatrice_works rfl rfl).mpr
    (.inl (Nat.succ_ne_zero 20))

theorem none_asked_all_imported :
    ¬ ∀ (system : System) (seed : List JSONValue) (records : Nat) (context : Context), Works system seed →
      context.inserted = [] → context.store = emptyStore →
      ∃ final, importJSONSeedData system records context = some final ∧
        FirstImported system seed records final.store := by
  intro imported
  obtain ⟨final, imports, first⟩ := imported beatriceSystem beatriceSeed 0 launched beatrice_works rfl rfl
  obtain ⟨other, employees, imports', made, -, stored, -, -⟩ :=
    import_seed_grown beatriceSystem beatriceSeed 0 launched beatrice_works rfl
  obtain rfl := Option.some.inj (imports'.symm.trans imports)
  have none_entered := first.employees.length_eq
  rw [stored] at none_entered
  have all_entered := made.length_eq
  have impossible : 21 = 0 := all_entered.trans none_entered.symm
  cases impossible

end Import

end CultivationMotain.EmployeeDirectory

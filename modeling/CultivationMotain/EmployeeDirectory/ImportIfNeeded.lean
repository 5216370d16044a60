import CultivationMotain.EmployeeDirectory.SeedImport

set_option autoImplicit false

namespace CultivationMotain.EmployeeDirectory

open Foundation

variable (system : System)

-- A deletion of all employees leaves none, and nothing is deleted where there
-- are none.
structure Deletes : Prop where
  all : ∀ store, (system.batchDelete store).employees = []
  nothing : ∀ store, store.employees = [] → system.batchDelete store = store

structure Quiet (before after : Context) : Prop where
  store : after.store = before.store
  removed : after.removed = before.removed
  imported : after.imported = before.imported

def SecondQuiet (amountToImport : Int) (context : Context) : Prop :=
  ∃ first second, importJSONSeedDataIfNeeded system amountToImport context = some first ∧
    importJSONSeedDataIfNeeded system amountToImport first = some second ∧ Quiet first second

def Complete (amountToImport : Int) (context : Context) : Prop :=
  (employeesFetched context).length = amountToImport ∧ (salesFetched context).length ≠ 0

variable (seed : List JSONValue) (amountToImport : Int) (context : Context)

theorem import_required_iff (succeeds : ∀ request, system.succeeds request = true) :
    ∃ required requests, importRequired system amountToImport context =
        (required, { context with requests := requests }) ∧
      (required = true ↔ ¬ Complete amountToImport context) := by
  have counted : ∀ (number : Nat) (context : Context),
      count system number context = (some number, { context with requests := context.requests + 1 }) := by
    intro number context
    rw [count, if_pos (succeeds _)]
  by_cases same : ((employeesFetched context).length : Int) = amountToImport
  · refine ⟨(salesFetched context).length == 0, context.requests + 1 + 1, ?_, ?_⟩
    · have equal : ¬ (some (employeesFetched context).length).map Int.ofNat ≠ some amountToImport :=
        not_not.mpr (congrArg some same)
      simp only [importRequired, counted, if_neg equal]
      rfl
    · simp [Complete, same]
  · refine ⟨true, context.requests + 1, ?_, ?_⟩
    · have different : (some (employeesFetched context).length).map Int.ofNat ≠ some amountToImport :=
        fun equal => same (Option.some.inj equal)
      simp only [importRequired, counted, if_pos different]
    · simp [Complete, same]

theorem complete_quiet (succeeds : ∀ request, system.succeeds request = true)
    (complete : Complete amountToImport context) :
    ∃ requests, importJSONSeedDataIfNeeded system amountToImport context =
      some { context with requests := requests } := by
  obtain ⟨required, requests, asks, needed⟩ := import_required_iff system amountToImport context succeeds
  have idle : ¬ required = true := fun required => needed.mp required complete
  refine ⟨requests, ?_⟩
  rw [importJSONSeedDataIfNeeded, asks]
  exact if_neg idle

-- The records that are asked for after the clamp.
def clamped : Int := max 0 (min 500 amountToImport)

theorem incomplete_imports (works : Works system seed) (deletes : Deletes system) (fresh : context.inserted = [])
    (incomplete : ¬ Complete amountToImport context) :
    ∃ after employees, importJSONSeedDataIfNeeded system amountToImport context = some after ∧
      List.Forall₂ (Made system) (seed.take (taken (clamped amountToImport) 0 seed.length)) employees ∧
      after.inserted = [] ∧
      after.store = ⟨employees, (system.batchDelete context.store).sales, (system.batchDelete context.store).pictures⟩ ∧
      after.removed = context.removed + context.store.employees.length ∧
      after.imported = context.imported + taken (clamped amountToImport) 0 seed.length := by
  obtain ⟨required, requests, asks, needed⟩ := import_required_iff system amountToImport context works.succeeds
  let deleted : Context := { context with
    store := system.batchDelete context.store
    requests := requests + 1
    removed := context.removed + context.store.employees.length }
  have saves : saveContext system deleted = some deleted := by
    rw [saveContext, show deleted.inserted = [] from fresh]
    rfl
  obtain ⟨after, employees, imports, made, reset, stored, removed, imported⟩ :=
    import_seed_grown system seed (clamped amountToImport) deleted works fresh
  refine ⟨after, employees, ?_, made, reset, ?_, removed, imported⟩
  · rw [importJSONSeedDataIfNeeded, asks]
    refine (if_pos (needed.mpr incomplete)).trans ?_
    refine bind_value (by rw [deleteEmployees, if_pos (works.succeeds _)]) ?_
    exact bind_value saves imports
  · rw [stored, show deleted.store = system.batchDelete context.store from rfl, deletes.all, List.nil_append]

theorem taken_clamped (length : Nat) (some_record : length ≠ 0) :
    (taken (clamped amountToImport) 0 length : Int) = amountToImport ↔
      1 ≤ amountToImport ∧ amountToImport ≤ 500 ∧ amountToImport ≤ length := by
  unfold taken clamped
  split <;> omega

theorem taken_le (records : Int) (length : Nat) : taken records 0 length ≤ length := by
  unfold taken
  split <;> omega

theorem taken_clamped_none (length : Nat) : taken (clamped amountToImport) 0 length = 0 ↔ length = 0 := by
  unfold taken clamped
  split <;> omega

theorem made_length (records : Int) (employees : List Employee)
    (made : List.Forall₂ (Made system) (seed.take (taken records 0 seed.length)) employees) :
    employees.length = taken records 0 seed.length := by
  rw [← made.length_eq, List.length_take, Nat.min_eq_left (taken_le records seed.length)]

theorem made_sold (records : List JSONValue) (employees : List Employee)
    (made : List.Forall₂ (Made system) records employees) : ∀ employee ∈ employees, employee.sales ≠ [] := by
  induction made with
  | nil => exact List.forall_mem_nil _
  | cons first _ ih => exact List.forall_mem_cons.mpr ⟨first.sold, ih⟩

theorem quiet_iff (works : Works system seed) (deletes : Deletes system) (fresh : context.inserted = []) :
    (∃ after, importJSONSeedDataIfNeeded system amountToImport context = some after ∧ Quiet context after) ↔
      Complete amountToImport context ∨ (context.store.employees = [] ∧ seed = []) := by
  by_cases complete : Complete amountToImport context
  · obtain ⟨requests, ended⟩ := complete_quiet system amountToImport context works.succeeds complete
    exact iff_of_true ⟨_, ended, rfl, rfl, rfl⟩ (.inl complete)
  · obtain ⟨after, employees, ended, made, -, stored, removed, imported⟩ :=
      incomplete_imports system seed amountToImport context works deletes fresh complete
    rw [or_iff_right complete]
    constructor
    · rintro ⟨other, ended', quiet⟩
      obtain rfl := Option.some.inj (ended.symm.trans ended')
      have none_removed := removed.symm.trans quiet.removed
      have none_taken := imported.symm.trans quiet.imported
      exact ⟨List.length_eq_zero_iff.mp (by omega),
        List.length_eq_zero_iff.mp ((taken_clamped_none amountToImport seed.length).mp (by omega))⟩
    · rintro ⟨no_employees, rfl⟩
      have none_taken := (taken_clamped_none amountToImport ([] : List JSONValue).length).mpr rfl
      refine ⟨after, ended, ?_, ?_, ?_⟩
      · have no_new : employees = [] :=
          List.length_eq_zero_iff.mp ((made_length system [] _ employees made).trans none_taken)
        rw [stored, no_new, deletes.nothing context.store no_employees, ← no_employees]
      · rw [removed, no_employees]
        rfl
      · rw [imported, none_taken]
        rfl

theorem sold_complete_iff (some_sold : ∀ employee ∈ context.store.employees, employee.sales ≠ [])
    (some_employee : context.store.employees ≠ []) (fresh : context.inserted = []) :
    Complete amountToImport context ↔ (context.store.employees.length : Int) = amountToImport := by
  obtain ⟨employee, member⟩ := List.exists_mem_of_ne_nil _ some_employee
  obtain ⟨sale, sold⟩ := List.exists_mem_of_ne_nil _ (some_sold employee member)
  have listed : sale ∈ salesFetched context := by
    refine List.mem_append_right _ (List.mem_flatMap.mpr ⟨employee, ?_, sold⟩)
    exact List.mem_append_left _ member
  have some_sale : (salesFetched context).length ≠ 0 := List.length_pos_of_mem listed |>.ne'
  rw [Complete, and_iff_left some_sale, employeesFetched, fresh, List.append_nil]

theorem second_quiet_after (first : Context)
    (ended : importJSONSeedDataIfNeeded system amountToImport context = some first) :
    SecondQuiet system amountToImport context ↔
      ∃ second, importJSONSeedDataIfNeeded system amountToImport first = some second ∧ Quiet first second := by
  constructor
  · rintro ⟨other, second, ended', again⟩
    obtain rfl := Option.some.inj (ended.symm.trans ended')
    exact ⟨second, again⟩
  · rintro ⟨second, again⟩
    exact ⟨first, second, ended, again⟩

-- An import of some records has taken as many as asked for exactly where the
-- clamp and the seed allow for them.
theorem imported_complete_iff (fresh : context.inserted = []) (some_record : seed ≠ [])
    (made : List.Forall₂ (Made system) (seed.take (taken (clamped amountToImport) 0 seed.length))
      context.store.employees) :
    Complete amountToImport context ↔
      1 ≤ amountToImport ∧ amountToImport ≤ 500 ∧ amountToImport ≤ seed.length := by
  have counted := made_length system seed (clamped amountToImport) context.store.employees made
  have records : seed.length ≠ 0 := fun empty => some_record (List.length_eq_zero_iff.mp empty)
  have some_employee : context.store.employees ≠ [] := by
    intro no_employees
    rw [no_employees] at counted
    exact records ((taken_clamped_none amountToImport seed.length).mp counted.symm)
  rw [sold_complete_iff amountToImport context (made_sold system _ _ made) some_employee fresh, counted,
    taken_clamped amountToImport seed.length records]

theorem second_import_quiet_iff (works : Works system seed) (deletes : Deletes system) (fresh : context.inserted = []) :
    SecondQuiet system amountToImport context ↔
      seed = [] ∨ (1 ≤ amountToImport ∧ amountToImport ≤ 500 ∧ amountToImport ≤ seed.length) ∨
        Complete amountToImport context := by
  by_cases complete : Complete amountToImport context
  · obtain ⟨requests, ended⟩ := complete_quiet system amountToImport context works.succeeds complete
    have again := (quiet_iff system seed amountToImport { context with requests := requests } works deletes fresh).mpr
      (.inl complete)
    exact iff_of_true ((second_quiet_after system amountToImport context _ ended).mpr again) (.inr (.inr complete))
  · obtain ⟨first, employees, ended, made, fresh_first, stored, -, -⟩ :=
      incomplete_imports system seed amountToImport context works deletes fresh complete
    obtain rfl : first.store.employees = employees := congrArg Store.employees stored
    rw [second_quiet_after system amountToImport context first ended,
      quiet_iff system seed amountToImport first works deletes fresh_first, or_iff_left complete]
    by_cases no_record : seed = []
    · have none_taken := (taken_clamped_none amountToImport seed.length).mpr (List.length_eq_zero_iff.mpr no_record)
      have counted := made_length system seed (clamped amountToImport) first.store.employees made
      exact iff_of_true (.inr ⟨List.length_eq_zero_iff.mp (counted.trans none_taken), no_record⟩) (.inl no_record)
    · rw [or_iff_left fun none_left => no_record none_left.2, or_iff_right no_record,
        imported_complete_iff system seed amountToImport first fresh_first no_record made]

theorem beatrice_deletes : Deletes beatriceSystem where
  all _ := rfl
  nothing store no_employees := by
    change { store with employees := [] } = store
    rw [← no_employees]

theorem beatrice_second_quiet : SecondQuiet beatriceSystem 21 launched :=
  (second_import_quiet_iff beatriceSystem beatriceSeed 21 launched beatrice_works beatrice_deletes
    rfl).mpr (.inr (.inl (by decide)))

theorem short_seed_imported_again :
    ¬ ∀ (system : System) (seed : List JSONValue) (amountToImport : Nat) (context : Context), Works system seed →
      Deletes system → context.inserted = [] → SecondQuiet system amountToImport context := by
  intro quiet
  obtain ⟨first, second, ended, again, same⟩ :=
    quiet beatriceSystem beatriceSeed 22 launched beatrice_works beatrice_deletes rfl
  have asked : ¬ Complete 22 launched := fun complete => absurd complete.1 (by decide)
  obtain ⟨after, employees, ended', made, fresh, stored, -, -⟩ :=
    incomplete_imports beatriceSystem beatriceSeed 22 launched beatrice_works beatrice_deletes rfl asked
  obtain rfl := Option.some.inj (ended'.symm.trans ended)
  have seeded : employees.length = 21 := made_length beatriceSystem beatriceSeed _ employees made
  have held : after.store.employees = employees := congrArg Store.employees stored
  rcases (quiet_iff beatriceSystem beatriceSeed 22 after beatrice_works beatrice_deletes fresh).mp
    ⟨second, again, same⟩ with complete | ⟨-, no_record⟩
  · have asked_for := complete.1
    rw [employeesFetched, fresh, held, List.append_nil, seeded] at asked_for
    exact absurd asked_for (by decide)
  · cases no_record

end CultivationMotain.EmployeeDirectory

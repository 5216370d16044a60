import CultivationMotain.UnCloudNotes.DataMigrationManager

set_option autoImplicit false

namespace CultivationMotain.UnCloudNotes

open Foundation Recursion

variable {Entities Content Mapping : Type} [DecidableEq Entities] [EmptyCollection Entities]

-- Reading the stack returns, the store that the stack opens is at the current
-- model, and the migrations from the given version on were applied in order.
def MigratesToCurrent (env : Environment Entities Content Mapping) (models : Version → NSManagedObjectModel Entities)
    (version : Version) (session : Session Entities Content) : Prop :=
  ∃ depth stack after url store,
    DataMigrationManager.stack env depth session = .returned (stack, after) ∧
    stack.storeURL env = some url ∧ after.2.disk url = some store ∧
    store.entities = (currentModel env session.1.modelName).entitiesByName ∧
    after.2.migrations = session.2.migrations ++ version.remaining.map fun old => (models old, models old.next)

-- The manager attempts no migration: its store is at the current model, or it
-- passes the guard and its store is at none of the bundled models.
def LeavesStoreAlone (env : Environment Entities Content Mapping) (manager : DataMigrationManager Entities)
    (world : World Entities Content) : Prop :=
  storeIsCompatibleWith env manager world (currentModel env manager.modelName) = true ∨
    (isVersion4 env manager = true ∧
      ∀ model ∈ modelVersionsForName env manager.modelName, storeIsCompatibleWith env manager world model = false)

omit [DecidableEq Entities] in
theorem old_version_model (env : Environment Entities Content Mapping) (modelName : String)
    (models : Version → NSManagedObjectModel Entities) (loads : LoadsVersions env modelName models)
    (version : Version) (older : version ≠ .four) :
    models version = version1 env ∨ models version = version2 env ∨ models version = version3 env := by
  cases version with
  | one => exact .inl (loads.lookup .one).symm
  | two => exact .inr (.inl (loads.lookup .two).symm)
  | three => exact .inr (.inr (loads.lookup .three).symm)
  | four => exact absurd rfl older

omit [DecidableEq Entities] in
theorem bundled_model_old (env : Environment Entities Content Mapping) (modelName : String)
    (models : Version → NSManagedObjectModel Entities) (holds : HoldsVersions env modelName models)
    (model : NSManagedObjectModel Entities) (bundled : model ∈ modelVersionsForName env modelName)
    (notCurrent : model ≠ currentModel env modelName) :
    model = version1 env ∨ model = version2 env ∨ model = version3 env := by
  obtain ⟨version, rfl⟩ := (holds.enumerated model).mp bundled
  refine old_version_model env modelName models holds.toLoadsVersions version fun same => ?_
  rw [same] at notCurrent
  exact notCurrent holds.current.symm

theorem stack_returns_alone (env : Environment Entities Content Mapping)
    (models : Version → NSManagedObjectModel Entities) (manager : DataMigrationManager Entities)
    (world : World Entities Content) (holds : HoldsVersions env manager.modelName models)
    (unread : manager.storeModel = none) (depth : Nat) (stack : CoreDataStack) (after : Session Entities Content)
    (returned : DataMigrationManager.stack env depth (manager, world) = .returned (stack, after)) :
    LeavesStoreAlone env manager world ∧ after.2 = world := by
  by_cases compatible : storeIsCompatibleWith env manager world (currentModel env manager.modelName) = true
  · simp only [DataMigrationManager.stack, compatible, if_true, Outcome.returned.injEq, Prod.mk.injEq] at returned
    exact ⟨.inl compatible, by rw [← returned.2]⟩
  · -- The recursive migration has to have returned, which an old store rules out.
    have migrated : ∃ last, call (performMigration env) depth (manager, world) = .returned last ∧ last = after := by
      simp only [DataMigrationManager.stack, compatible, Bool.false_eq_true, if_false] at returned
      split at returned
      · rename_i last ended
        simp only [Outcome.returned.injEq, Prod.mk.injEq] at returned
        exact ⟨last, ended, returned.2⟩
      · cases returned
      · cases returned
    obtain ⟨last, ended, rfl⟩ := migrated
    cases depth with
    | zero => simp [call] at ended
    | succ depth =>
        by_cases guard : isVersion4 env manager = true
        · cases read : (readStoreModel env manager world).1 with
          | none =>
              have unknown := (store_model_none_iff env manager world unread).mp read
              have ends : performMigration env (manager, world) =
                  .done ((readStoreModel env manager world).2, world) := by
                simp only [performMigration, guard, if_true]
                split
                · rename_i same
                  rw [same]
                · rename_i same
                  rw [same] at read
                  cases read
              rw [call_done _ _ _ _ ends] at ended
              exact ⟨.inr ⟨guard, unknown⟩, by rw [← Outcome.returned.inj ended]⟩
          | some model =>
              obtain ⟨bundled, suits⟩ := store_model_compatible env manager world model unread read
              have notCurrent : model ≠ currentModel env manager.modelName := fun same =>
                compatible (same ▸ suits)
              have old := bundled_model_old env manager.modelName models holds model bundled notCurrent
              exact absurd ended (old_model_never_returns env (manager, world) model unread read old (depth + 1) last)
        · have traps : performMigration env (manager, world) = .trap := by
            simp only [performMigration, guard, Bool.false_eq_true, if_false]
          rw [call_trap _ _ _ traps] at ended
          cases ended

theorem alone_stack_returns (env : Environment Entities Content Mapping) (manager : DataMigrationManager Entities)
    (world : World Entities Content) (unread : manager.storeModel = none)
    (alone : LeavesStoreAlone env manager world) :
    ∃ depth stack after, DataMigrationManager.stack env depth (manager, world) = .returned (stack, after) ∧
      after.2 = world ∧ stack.storeName = manager.storeName := by
  by_cases compatible : storeIsCompatibleWith env manager world (currentModel env manager.modelName) = true
  · refine ⟨0, ⟨manager.modelName, manager.storeName, manager.options⟩, (manager, world), ?_, rfl, rfl⟩
    simp only [DataMigrationManager.stack, compatible, if_true]
  · rcases alone with current | ⟨guard, unknown⟩
    · exact absurd current compatible
    · have none_read := (store_model_none_iff env manager world unread).mpr unknown
      have whole : readStoreModel env manager world = (none, { manager with storeModel := some none }) := by
        simp only [readStoreModel, unread] at none_read ⊢
        rw [none_read]
      have ends : performMigration env (manager, world) =
          .done ({ manager with storeModel := some none }, world) := by
        simp only [performMigration, guard, if_true, whole]
      refine ⟨1, ⟨manager.modelName, manager.storeName, manager.options⟩,
        ({ manager with storeModel := some none }, world), ?_, rfl, rfl⟩
      simp only [DataMigrationManager.stack, compatible, Bool.false_eq_true, if_false, call_done _ _ 0 _ ends]

theorem stack_migrates_iff (env : Environment Entities Content Mapping)
    (models : Version → NSManagedObjectModel Entities) (storeName modelName : String)
    (world : World Entities Content) (version : Version) (url : URL) (store : Store Entities Content)
    (holds : HoldsVersions env modelName models)
    (located : (CoreDataStack.mk modelName storeName none).storeURL env = some url)
    (present : world.disk url = some store) (versioned : store.entities = (models version).entitiesByName) :
    MigratesToCurrent env models version (.new storeName modelName, world) ↔
      version = .four ∧ LeavesStoreAlone env (.new storeName modelName) world := by
  constructor
  · rintro ⟨depth, stack, after, _, _, returned, _, _, _, applied⟩
    obtain ⟨alone, unchanged⟩ :=
      stack_returns_alone env models (.new storeName modelName) world holds rfl depth stack after returned
    refine ⟨?_, alone⟩
    rw [unchanged] at applied
    have none_left : version.remaining = [] := by simpa using applied
    exact (remaining_nil_iff version).mp none_left
  · rintro ⟨rfl, alone⟩
    obtain ⟨depth, stack, after, returned, unchanged, named⟩ :=
      alone_stack_returns env (.new storeName modelName) world rfl alone
    refine ⟨depth, stack, after, url, store, returned, ?_, ?_, ?_, ?_⟩
    · rw [← located]
      simp only [CoreDataStack.storeURL, named, DataMigrationManager.new]
    · rw [unchanged]
      exact present
    · exact versioned.trans (congrArg _ holds.current.symm)
    · simp [unchanged, Version.remaining]

theorem sample_holds_versions (outcome : MigrationOutcome EntityList String) :
    HoldsVersions (sampleEnvironment outcome) "UnCloudNotesDataModel" sampleModels where
  lookup version := by cases version <;> rfl
  enumerated model := by
    have bundled : modelVersionsForName (sampleEnvironment outcome) "UnCloudNotesDataModel" =
        [sampleModels .one, sampleModels .two, sampleModels .three, sampleModels .four] := rfl
    rw [bundled]
    constructor
    · intro member
      simp only [List.mem_cons, List.not_mem_nil, or_false] at member
      rcases member with rfl | rfl | rfl | rfl
      · exact ⟨.one, rfl⟩
      · exact ⟨.two, rfl⟩
      · exact ⟨.three, rfl⟩
      · exact ⟨.four, rfl⟩
    · rintro ⟨version, rfl⟩
      cases version <;> simp
  current := rfl
  distinct a b same := by
    cases a <;> cases b <;> first | rfl | exact absurd same (by decide)

theorem stack_migrates_current :
    MigratesToCurrent (sampleEnvironment ⟨true, true, true, none⟩) sampleModels .four
      (.new "UnCloudNotes" "UnCloudNotesDataModel", sampleWorld .four) :=
  (stack_migrates_iff (sampleEnvironment ⟨true, true, true, none⟩) sampleModels "UnCloudNotes"
    "UnCloudNotesDataModel" (sampleWorld .four) .four _ _ (sample_holds_versions _) rfl rfl rfl).mpr
    ⟨rfl, .inl rfl⟩

-- Every migration would succeed, but a store of version 1 is never migrated:
-- the guard compares the manager's own, empty, entities with those of version 4.
theorem version_one_traps :
    HoldsVersions (sampleEnvironment ⟨true, true, true, none⟩) "UnCloudNotesDataModel" sampleModels ∧
      DataMigrationManager.stack (sampleEnvironment ⟨true, true, true, none⟩) 1
        (.new "UnCloudNotes" "UnCloudNotesDataModel", sampleWorld .one) = .trapped ∧
      ¬ MigratesToCurrent (sampleEnvironment ⟨true, true, true, none⟩) sampleModels .one
        (.new "UnCloudNotes" "UnCloudNotesDataModel", sampleWorld .one) := by
  refine ⟨sample_holds_versions _, rfl, ?_⟩
  rintro ⟨depth, stack, after, _, _, returned, _⟩
  obtain ⟨alone, _⟩ := stack_returns_alone (sampleEnvironment ⟨true, true, true, none⟩) sampleModels
    (.new "UnCloudNotes" "UnCloudNotesDataModel") (sampleWorld .one) (sample_holds_versions _) rfl depth stack
    after returned
  rcases alone with current | ⟨guard, _⟩
  · exact absurd current (by decide)
  · exact absurd guard (by decide)

theorem read_store_version (env : Environment Entities Content Mapping)
    (models : Version → NSManagedObjectModel Entities) (manager : DataMigrationManager Entities)
    (world : World Entities Content) (version : Version) (store : Store Entities Content)
    (loads : LoadsVersions env manager.modelName models) (unread : manager.storeModel = none)
    (present : world.disk (manager.storeURL env) = some store)
    (versioned : store.entities = (models version).entitiesByName) :
    (readStoreModel env manager world).1 = some (models version) := by
  have suits : ∀ model, storeIsCompatibleWith env manager world model = true ↔ model = models version := by
    intro model
    simp only [storeIsCompatibleWith, present, versioned, decide_eq_true_eq]
    exact ⟨fun same => NSManagedObjectModel.ext same.symm, fun same => by rw [same]⟩
  cases read : (readStoreModel env manager world).1 with
  | some model => rw [(suits model).mp (store_model_compatible env manager world model unread read).2]
  | none =>
      have unsuitable := (store_model_none_iff env manager world unread).mp read (models version)
        ((loads.enumerated _).mpr ⟨version, rfl⟩)
      rw [(suits _).mpr rfl] at unsuitable
      cases unsuitable

-- performMigration returned, after at most three migrateStoreAt calls.
def ReturnsWithinThree (env : Environment Entities Content Mapping) (session : Session Entities Content) : Prop :=
  ∃ after, Returns (performMigration env) session after ∧ after.2.calls ≤ session.2.calls + 3

theorem perform_migration_bounded_iff (env : Environment Entities Content Mapping)
    (models : Version → NSManagedObjectModel Entities) (manager : DataMigrationManager Entities)
    (world : World Entities Content) (version : Version) (store : Store Entities Content)
    (loads : LoadsVersions env manager.modelName models) (guard : isVersion4 env manager = true)
    (unread : manager.storeModel = none) (present : world.disk (manager.storeURL env) = some store)
    (versioned : store.entities = (models version).entitiesByName) :
    ReturnsWithinThree env (manager, world) ↔ version = .four := by
  have read := read_store_version env models manager world version store loads unread present versioned
  constructor
  · rintro ⟨after, ⟨depth, returned⟩, _⟩
    by_contra older
    have old := old_version_model env manager.modelName models loads version older
    exact old_model_never_returns env (manager, world) (models version) unread read old depth after returned
  · rintro rfl
    have whole : readStoreModel env manager world =
        (some (models .four), { manager with storeModel := some (some (models .four)) }) := by
      simp only [readStoreModel, unread] at read ⊢
      rw [read]
    have differs : ∀ other, other ≠ Version.four → models .four ≠ versionModel env other := by
      intro other different same
      exact different (loads.distinct (same.trans (loads.lookup other))).symm
    have not1 : models .four ≠ version1 env := differs .one (by decide)
    have not2 : models .four ≠ version2 env := differs .two (by decide)
    have not3 : models .four ≠ version3 env := differs .three (by decide)
    refine ⟨({ manager with options := some ⟨true, false⟩, storeModel := some (some (models .four)) }, world),
      returns_done _ _ _ ?_, ?_⟩
    · simp only [performMigration, guard, if_true, whole, not1, not2, not3, if_false, decide_false]
    · exact Nat.le_add_right _ _

-- A manager given the entities of version 4, so that the guard lets it pass.
def guardedManager : DataMigrationManager EntityList :=
  { (DataMigrationManager.new "UnCloudNotes" "UnCloudNotesDataModel") with
    entitiesByName := (sampleModels .four).entitiesByName }

theorem perform_migration_bounded_current :
    ReturnsWithinThree (sampleEnvironment ⟨true, true, true, none⟩) (guardedManager, sampleWorld .four) :=
  (perform_migration_bounded_iff (sampleEnvironment ⟨true, true, true, none⟩) sampleModels guardedManager
    (sampleWorld .four) .four _ (sample_holds_versions _).toLoadsVersions (by decide) rfl rfl rfl).mpr rfl

-- From version 1 the cached storeModel stays at version 1 although every
-- migration succeeds, and the recursion goes on.
theorem version_one_recurses_forever :
    isVersion4 (sampleEnvironment ⟨true, true, true, none⟩) guardedManager = true ∧
      (∀ depth after, call (performMigration (sampleEnvironment ⟨true, true, true, none⟩)) depth
        (guardedManager, sampleWorld .one) ≠ .returned after) ∧
      ¬ ReturnsWithinThree (sampleEnvironment ⟨true, true, true, none⟩) (guardedManager, sampleWorld .one) := by
  have stays : ∀ depth after, call (performMigration (sampleEnvironment ⟨true, true, true, none⟩)) depth
      (guardedManager, sampleWorld .one) ≠ .returned after := fun depth after =>
    old_model_never_returns _ (guardedManager, sampleWorld .one) (sampleModels .one) rfl
      (read_store_version _ sampleModels guardedManager (sampleWorld .one) .one _
        (sample_holds_versions _).toLoadsVersions rfl rfl rfl)
      (.inl rfl) depth after
  exact ⟨by decide, stays, fun ⟨after, ⟨depth, returned⟩, _⟩ => stays depth after returned⟩

end CultivationMotain.UnCloudNotes

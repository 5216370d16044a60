import CultivationMotain.Library.Recursion
import CultivationMotain.UnCloudNotes.StoreMigration

set_option autoImplicit false

namespace CultivationMotain.UnCloudNotes

open Foundation Recursion

structure MigrationOptions where
  migratePersistentStoresAutomatically : Bool
  inferMappingModelAutomatically : Bool
deriving DecidableEq, Repr

-- The class extends NSManagedObjectModel, hence entitiesByName: the manager's
-- own entities. The outer option of storeModel is its lazy initialisation.
structure DataMigrationManager (Entities : Type) where
  storeName : String
  modelName : String
  entitiesByName : Entities
  options : Option MigrationOptions
  storeModel : Option (Option (NSManagedObjectModel Entities))

structure CoreDataStack where
  modelName : String
  storeName : String
  options : Option MigrationOptions
deriving DecidableEq, Repr

variable {Entities Content Mapping : Type}

-- Subscripting an empty search path traps.
def CoreDataStack.storeURL (env : Environment Entities Content Mapping) (stack : CoreDataStack) : Option URL :=
  env.applicationSupport.head?.map fun storePath =>
    fileURL env.currentDirectory (appendingPathComponent storePath (stack.storeName ++ ".sqlite"))

-- The optional first search path is described, not unwrapped.
def DataMigrationManager.storeURL (env : Environment Entities Content Mapping)
    (manager : DataMigrationManager Entities) : URL :=
  let firstStorePath := describing env.applicationSupport.head?
  fileURL env.currentDirectory (appendingPathComponent firstStorePath (manager.storeName ++ ".sqlite"))

variable [DecidableEq Entities]

-- The metadata of a missing store is the empty dictionary, which no model is
-- compatible with.
def storeIsCompatibleWith (env : Environment Entities Content Mapping) (manager : DataMigrationManager Entities)
    (world : World Entities Content) (model : NSManagedObjectModel Entities) : Bool :=
  match world.disk (manager.storeURL env) with
  | some store => store.entities = model.entitiesByName
  | none => false

-- The first bundled model the store is compatible with; read once, then cached.
def readStoreModel (env : Environment Entities Content Mapping) (manager : DataMigrationManager Entities)
    (world : World Entities Content) :
    Option (NSManagedObjectModel Entities) × DataMigrationManager Entities :=
  match manager.storeModel with
  | some cached => (cached, manager)
  | none =>
      let found := (modelVersionsForName env manager.modelName).find? fun model =>
        storeIsCompatibleWith env manager world model
      (found, { manager with storeModel := some found })

theorem store_model_compatible (env : Environment Entities Content Mapping) (manager : DataMigrationManager Entities)
    (world : World Entities Content) (model : NSManagedObjectModel Entities) (unread : manager.storeModel = none)
    (found : (readStoreModel env manager world).1 = some model) :
    model ∈ modelVersionsForName env manager.modelName ∧ storeIsCompatibleWith env manager world model = true := by
  simp only [readStoreModel, unread] at found
  exact ⟨List.mem_of_find?_eq_some found, List.find?_some found⟩

theorem store_model_none_iff (env : Environment Entities Content Mapping) (manager : DataMigrationManager Entities)
    (world : World Entities Content) (unread : manager.storeModel = none) :
    (readStoreModel env manager world).1 = none ↔
      ∀ model ∈ modelVersionsForName env manager.modelName, storeIsCompatibleWith env manager world model = false := by
  simp [readStoreModel, unread]

variable [EmptyCollection Entities]

def DataMigrationManager.new (storeName modelName : String) : DataMigrationManager Entities :=
  ⟨storeName, modelName, ∅, none, none⟩

-- The manager itself is compared, not its current model.
def isVersion4 (env : Environment Entities Content Mapping) (manager : DataMigrationManager Entities) : Bool :=
  manager.entitiesByName = (version4 env).entitiesByName

abbrev Session (Entities Content : Type) := DataMigrationManager Entities × World Entities Content

def migrateThenAgain (manager : DataMigrationManager Entities) :
    Option (World Entities Content) → Verdict (Session Entities Content) (Session Entities Content)
  | none => .trap
  | some world => .again (manager, world)

def performMigration (env : Environment Entities Content Mapping) (session : Session Entities Content) :
    Verdict (Session Entities Content) (Session Entities Content) :=
  let (manager, world) := session
  if isVersion4 env manager then
    match readStoreModel env manager world with
    | (none, manager) => .done (manager, world)
    | (some storeModel, manager) =>
        let manager := { manager with options := some ⟨true, decide (storeModel = version1 env)⟩ }
        let storeURL := manager.storeURL env
        if storeModel = version1 env then
          migrateThenAgain manager (migrateStoreAt env world storeURL storeModel (version2 env) none)
        else if storeModel = version2 env then
          migrateThenAgain manager (migrateStoreAt env world storeURL storeModel (version3 env)
            (env.mappingModel storeModel (version3 env)))
        else if storeModel = version3 env then
          migrateThenAgain manager (migrateStoreAt env world storeURL storeModel (version4 env)
            (env.mappingModel storeModel (version4 env)))
        else .done (manager, world)
  -- fatalError("Can only handle migrations to version 4!")
  else .trap

-- The stack getter, its recursive call cut off at the given depth.
def DataMigrationManager.stack (env : Environment Entities Content Mapping) (depth : Nat)
    (session : Session Entities Content) : Outcome (CoreDataStack × Session Entities Content) :=
  let opened (session : Session Entities Content) : CoreDataStack × Session Entities Content :=
    (⟨session.1.modelName, session.1.storeName, session.1.options⟩, session)
  if storeIsCompatibleWith env session.1 session.2 (currentModel env session.1.modelName) then
    .returned (opened session)
  else
    match call (performMigration env) depth session with
    | .returned after => .returned (opened after)
    | .trapped => .trapped
    | .running => .running

-- After one activation that calls the next, the version the manager believes
-- the store to have is the one it read first, and the guard is as it was.
def Stuck (env : Environment Entities Content Mapping) (model : NSManagedObjectModel Entities)
    (session : Session Entities Content) : Prop :=
  session.1.storeModel = some (some model) ∧
    (model = version1 env ∨ model = version2 env ∨ model = version3 env)

omit [DecidableEq Entities] in
theorem migrate_then_again_stuck (env : Environment Entities Content Mapping) (model : NSManagedObjectModel Entities)
    (manager : DataMigrationManager Entities) (result : Option (World Entities Content))
    (cached : manager.storeModel = some (some model))
    (old : model = version1 env ∨ model = version2 env ∨ model = version3 env) :
    migrateThenAgain manager result = .trap ∨
      ∃ next, migrateThenAgain manager result = .again next ∧ Stuck env model next := by
  cases result with
  | none => exact .inl rfl
  | some world => exact .inr ⟨(manager, world), rfl, cached, old⟩

-- A store model of version 1 to 3, cached or just read, sends the activation
-- into another one from which nothing has moved on.
theorem old_model_stays (env : Environment Entities Content Mapping) (session : Session Entities Content)
    (model : NSManagedObjectModel Entities) (manager : DataMigrationManager Entities)
    (read : readStoreModel env session.1 session.2 = (some model, manager))
    (cached : manager.storeModel = some (some model))
    (old : model = version1 env ∨ model = version2 env ∨ model = version3 env) :
    performMigration env session = .trap ∨
      ∃ next, performMigration env session = .again next ∧ Stuck env model next := by
  obtain ⟨before, world⟩ := session
  unfold performMigration
  simp only [read]
  by_cases guard : isVersion4 env before
  · rw [if_pos guard]
    split_ifs with first second third
    · exact migrate_then_again_stuck env model _ _ cached old
    · exact migrate_then_again_stuck env model _ _ cached old
    · exact migrate_then_again_stuck env model _ _ cached old
    · rcases old with one | two | three
      · exact absurd one first
      · exact absurd two second
      · exact absurd three third
  · rw [if_neg guard]
    exact .inl rfl

theorem stuck_stays (env : Environment Entities Content Mapping) (model : NSManagedObjectModel Entities)
    (session : Session Entities Content) (stuck : Stuck env model session) :
    performMigration env session = .trap ∨
      ∃ next, performMigration env session = .again next ∧ Stuck env model next := by
  refine old_model_stays env session model session.1 ?_ stuck.1 stuck.2
  simp only [readStoreModel, stuck.1]

theorem old_model_never_returns (env : Environment Entities Content Mapping) (session : Session Entities Content)
    (model : NSManagedObjectModel Entities) (unread : session.1.storeModel = none)
    (read : (readStoreModel env session.1 session.2).1 = some model)
    (old : model = version1 env ∨ model = version2 env ∨ model = version3 env)
    (depth : Nat) (after : Session Entities Content) :
    call (performMigration env) depth session ≠ .returned after := by
  have whole : readStoreModel env session.1 session.2 =
      (some model, { session.1 with storeModel := some (some model) }) := by
    simp only [readStoreModel, unread] at read ⊢
    rw [read]
  have first := old_model_stays env session model _ whole rfl old
  cases depth with
  | zero => simp [call]
  | succ depth =>
      rcases first with traps | ⟨next, again, stuck⟩
      · rw [call_trap _ _ _ traps]
        simp
      · simp only [call, again]
        exact never_returns _ (Stuck env model) (stuck_stays env model) next stuck depth after

end CultivationMotain.UnCloudNotes

import CultivationMotain.UnCloudNotes.ModelBundle
import Mathlib.Logic.Function.Basic

set_option autoImplicit false

namespace CultivationMotain.UnCloudNotes

open Foundation

abbrev Disk (Entities Content : Type) := URL → Option (Store Entities Content)

-- migrations and calls are ghost counters: the migrations whose result replaced
-- the store, in order, and the number of migrateStoreAt calls so far.
structure World (Entities Content : Type) where
  disk : Disk Entities Content
  migrations : List (NSManagedObjectModel Entities × NSManagedObjectModel Entities)
  calls : Nat

variable {Entities Content Mapping : Type}

-- FileManager.removeItem and moveItem; none where they throw.
def removeItem (succeeds : Bool) (disk : Disk Entities Content) (url : URL) : Option (Disk Entities Content) :=
  if succeeds && (disk url).isSome then some (Function.update disk url none) else none

def moveItem (succeeds : Bool) (disk : Disk Entities Content) (source destination : URL) :
    Option (Disk Entities Content) :=
  if succeeds && (disk source).isSome && (disk destination).isNone then
    some (Function.update (Function.update disk destination (disk source)) source none)
  else none

-- NSMigrationManager.migrateStore writes the converted store to the temporary
-- URL; the flag tells whether it returned without throwing.
def migrateStore (env : Environment Entities Content Mapping) (outcome : MigrationOutcome Entities Content)
    (disk : Disk Entities Content) (source destination : URL) (toModel : NSManagedObjectModel Entities)
    (mapping : Mapping) : Disk Entities Content × Bool :=
  match outcome.migrated, disk source with
  | true, some store =>
      (Function.update disk destination (some ⟨toModel.entitiesByName, env.convert mapping store.content⟩), true)
  | _, _ => (Function.update disk destination outcome.leftover, false)

def temporaryURL (storeURL : URL) (lastPathComponent : String) : URL :=
  storeURL.deletingLastPathComponent.appendingPathComponent (lastPathComponent ++ "~" ++ "1")

-- The mapping model passed in, or else the inferred one, whose absence traps
-- (try!).
def migrationMappingModel (env : Environment Entities Content Mapping)
    (fromModel toModel : NSManagedObjectModel Entities) : Option Mapping → Option Mapping
  | some mapping => some mapping
  | none => env.inferredMappingModel fromModel toModel

-- none is a trap: the forced lastPathComponent or the forced mapping inference.
def migrateStoreAt (env : Environment Entities Content Mapping) (world : World Entities Content) (storeURL : URL)
    (fromModel toModel : NSManagedObjectModel Entities) (mappingModel : Option Mapping) :
    Option (World Entities Content) :=
  match migrationMappingModel env fromModel toModel mappingModel, storeURL.lastPathComponent? with
  | some mapping, some last =>
      let outcome := env.outcomes world.calls
      let destination := temporaryURL storeURL last
      let (disk, success) := migrateStore env outcome world.disk storeURL destination toModel mapping
      let calls := world.calls + 1
      if success then
        -- A throwing removal or move is only logged; what was done before it stays.
        match removeItem outcome.removed disk storeURL with
        | none => some { world with disk := disk, calls := calls }
        | some removed =>
            match moveItem outcome.moved removed destination storeURL with
            | none => some { world with disk := removed, calls := calls }
            | some moved =>
                some { disk := moved, migrations := world.migrations ++ [(fromModel, toModel)], calls := calls }
      else some { world with disk := disk, calls := calls }
  | _, _ => none

theorem temporary_ne (storeURL : URL) (last : String) (named : storeURL.lastPathComponent? = some last) :
    storeURL ≠ temporaryURL storeURL last := by
  intro same
  have lastEq : last = last ++ "~" ++ "1" := by
    have component := congrArg URL.lastPathComponent? same
    rw [named, temporaryURL, last_appending] at component
    exact Option.some.inj component
  have lengths := congrArg String.length lastEq
  simp only [String.length_append] at lengths
  have tilde : "~".length = 1 := rfl
  omega

theorem migrate_store_at_returns (env : Environment Entities Content Mapping) (world : World Entities Content)
    (storeURL : URL) (fromModel toModel : NSManagedObjectModel Entities) (mappingModel : Option Mapping)
    (mapping : Mapping) (last : String)
    (mapped : migrationMappingModel env fromModel toModel mappingModel = some mapping)
    (named : storeURL.lastPathComponent? = some last) :
    ∃ after, migrateStoreAt env world storeURL fromModel toModel mappingModel = some after := by
  simp only [migrateStoreAt, mapped, named]
  split
  · split
    · exact ⟨_, rfl⟩
    · split <;> exact ⟨_, rfl⟩
  · exact ⟨_, rfl⟩

-- The store that a migration all of whose steps succeed should leave.
def migratedStore (env : Environment Entities Content Mapping) (fromModel toModel : NSManagedObjectModel Entities)
    (mappingModel : Option Mapping) (original : Store Entities Content) : Option (Store Entities Content) :=
  (migrationMappingModel env fromModel toModel mappingModel).map fun mapping =>
    ⟨toModel.entitiesByName, env.convert mapping original.content⟩

def AllSucceed (outcome : MigrationOutcome Entities Content) : Prop :=
  outcome.migrated = true ∧ outcome.removed = true ∧ outcome.moved = true

instance (outcome : MigrationOutcome Entities Content) : Decidable (AllSucceed outcome) :=
  inferInstanceAs (Decidable (_ ∧ _ ∧ _))

-- The method returned with a complete store at storeURL: the migrated one if
-- every step succeeded, the original otherwise.
def CompleteStoreAt (env : Environment Entities Content Mapping) (world after : World Entities Content)
    (storeURL : URL) (fromModel toModel : NSManagedObjectModel Entities) (mappingModel : Option Mapping)
    (original : Store Entities Content) : Prop :=
  after.disk storeURL =
    if AllSucceed (env.outcomes world.calls) then migratedStore env fromModel toModel mappingModel original
    else some original

-- The old store is gone and the new one could not take its place.
def LostBetween (outcome : MigrationOutcome Entities Content) : Prop :=
  outcome.migrated = true ∧ outcome.removed = true ∧ outcome.moved = false

theorem migrate_store_staged (env : Environment Entities Content Mapping)
    (outcome : MigrationOutcome Entities Content) (disk : Disk Entities Content) (source destination : URL)
    (toModel : NSManagedObjectModel Entities) (mapping : Mapping) (original : Store Entities Content)
    (present : disk source = some original) :
    migrateStore env outcome disk source destination toModel mapping =
      (Function.update disk destination
        (if outcome.migrated then some ⟨toModel.entitiesByName, env.convert mapping original.content⟩
          else outcome.leftover), outcome.migrated) := by
  unfold migrateStore
  rw [present]
  cases outcome.migrated <;> rfl

theorem migrate_store_at_disk (env : Environment Entities Content Mapping) (world after : World Entities Content)
    (storeURL : URL) (fromModel toModel : NSManagedObjectModel Entities) (mappingModel : Option Mapping)
    (original : Store Entities Content) (present : world.disk storeURL = some original)
    (returned : migrateStoreAt env world storeURL fromModel toModel mappingModel = some after) :
    after.disk storeURL =
      if AllSucceed (env.outcomes world.calls) then migratedStore env fromModel toModel mappingModel original
      else if (env.outcomes world.calls).migrated ∧ (env.outcomes world.calls).removed then none
      else some original := by
  cases mappingEq : migrationMappingModel env fromModel toModel mappingModel with
  | none => simp [migrateStoreAt, mappingEq] at returned
  | some mapping =>
      cases lastEq : storeURL.lastPathComponent? with
      | none => simp [migrateStoreAt, mappingEq, lastEq] at returned
      | some last =>
          have apart := temporary_ne storeURL last lastEq
          simp only [migrateStoreAt, mappingEq, lastEq,
            migrate_store_staged env _ world.disk storeURL _ toModel mapping original present] at returned
          cases migrated : (env.outcomes world.calls).migrated <;>
            cases removed : (env.outcomes world.calls).removed <;>
            cases moved : (env.outcomes world.calls).moved <;>
            simp [migrated, removed, moved, removeItem, moveItem, apart, apart.symm, present] at returned <;>
            subst returned <;>
            simp [AllSucceed, migrated, removed, moved, migratedStore, mappingEq, apart, present]

theorem migrate_store_at_atomic_iff (env : Environment Entities Content Mapping)
    (world after : World Entities Content) (storeURL : URL) (fromModel toModel : NSManagedObjectModel Entities)
    (mappingModel : Option Mapping) (original : Store Entities Content)
    (present : world.disk storeURL = some original)
    (returned : migrateStoreAt env world storeURL fromModel toModel mappingModel = some after) :
    CompleteStoreAt env world after storeURL fromModel toModel mappingModel original ↔
      ¬ LostBetween (env.outcomes world.calls) := by
  rw [CompleteStoreAt,
    migrate_store_at_disk env world after storeURL fromModel toModel mappingModel original present returned]
  cases migrated : (env.outcomes world.calls).migrated <;>
    cases removed : (env.outcomes world.calls).removed <;>
    cases moved : (env.outcomes world.calls).moved <;>
    simp [AllSucceed, LostBetween, migrated, removed, moved]

-- The four versions of UnCloudNotesDataModel, each entity with its properties.
abbrev EntityList := List (String × List String)

def noteProperties : List String := ["body", "dateCreated", "displayIndex", "title"]

def sampleModels : Version → NSManagedObjectModel EntityList
  | .one => ⟨[("Note", noteProperties)]⟩
  | .two => ⟨[("Note", noteProperties ++ ["image"])]⟩
  | .three => ⟨[("Attachment", ["dateCreated", "image", "note"]), ("Note", noteProperties ++ ["attachments"])]⟩
  | .four => ⟨[("Attachment", ["dateCreated", "note"]), ("ImageAttachment", ["caption", "height", "image", "width"]),
      ("Note", noteProperties ++ ["attachments"])]⟩

def sampleEnvironment (outcome : MigrationOutcome EntityList String) : Environment EntityList String Unit where
  momd := [("UnCloudNotesDataModel", some (sampleModels .four))]
  mom := [⟨"UnCloudNotesDataModel.momd", "UnCloudNotesDataModel.momd", some (sampleModels .one)⟩,
    ⟨"UnCloudNotesDataModel.momd", "UnCloudNotesDataModel v2", some (sampleModels .two)⟩,
    ⟨"UnCloudNotesDataModel.momd", "UnCloudNotesDataModel v3", some (sampleModels .three)⟩,
    ⟨"UnCloudNotesDataModel.momd", "UnCloudNotesDataModel v4", some (sampleModels .four)⟩]
  applicationSupport := ["/Library/Application Support"]
  currentDirectory := []
  mappingModel := fun _ _ => some ()
  inferredMappingModel := fun _ _ => some ()
  convert := fun _ content => content
  outcomes := fun _ => outcome

def sampleURL : URL := ⟨"file:///", ["Library", "Application Support", "UnCloudNotes.sqlite"]⟩

def sampleWorld (version : Version) : World EntityList String :=
  ⟨fun _ => some ⟨(sampleModels version).entitiesByName, "notes"⟩, [], 0⟩

theorem migrate_store_at_atomic_success :
    ∃ after, migrateStoreAt (sampleEnvironment ⟨true, true, true, none⟩) (sampleWorld .one) sampleURL
        (sampleModels .one) (sampleModels .two) none = some after ∧
      CompleteStoreAt (sampleEnvironment ⟨true, true, true, none⟩) (sampleWorld .one) after sampleURL
        (sampleModels .one) (sampleModels .two) none ⟨(sampleModels .one).entitiesByName, "notes"⟩ := by
  obtain ⟨after, returned⟩ := migrate_store_at_returns (sampleEnvironment ⟨true, true, true, none⟩)
    (sampleWorld .one) sampleURL (sampleModels .one) (sampleModels .two) none () _ rfl rfl
  refine ⟨after, returned, ?_⟩
  have kept : ¬ LostBetween ((sampleEnvironment ⟨true, true, true, none⟩).outcomes (sampleWorld .one).calls) := by
    rintro ⟨_, _, moved⟩
    cases moved
  exact (migrate_store_at_atomic_iff _ _ after sampleURL _ _ none _ rfl returned).mpr kept

-- Removing the old store works, moving the new one does not: no store is left.
theorem move_failure_loses_store :
    ∃ after, migrateStoreAt (sampleEnvironment ⟨true, true, false, none⟩) (sampleWorld .one) sampleURL
        (sampleModels .one) (sampleModels .two) none = some after ∧
      (sampleWorld .one).disk sampleURL = some ⟨(sampleModels .one).entitiesByName, "notes"⟩ ∧
      ¬ CompleteStoreAt (sampleEnvironment ⟨true, true, false, none⟩) (sampleWorld .one) after sampleURL
        (sampleModels .one) (sampleModels .two) none ⟨(sampleModels .one).entitiesByName, "notes"⟩ := by
  obtain ⟨after, returned⟩ := migrate_store_at_returns (sampleEnvironment ⟨true, true, false, none⟩)
    (sampleWorld .one) sampleURL (sampleModels .one) (sampleModels .two) none () _ rfl rfl
  refine ⟨after, returned, rfl, ?_⟩
  have gone := migrate_store_at_disk _ _ after sampleURL _ _ none _ rfl returned
  have empty : after.disk sampleURL = none := by
    rw [gone]
    rfl
  rw [CompleteStoreAt, empty]
  exact fun same => nomatch same

end CultivationMotain.UnCloudNotes

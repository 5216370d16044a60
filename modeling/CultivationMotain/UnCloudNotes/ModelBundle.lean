import CultivationMotain.Foundation.URL

set_option autoImplicit false

namespace CultivationMotain.UnCloudNotes

open Foundation

-- Two managed object models count as equal when their entities are, so a model
-- is its entitiesByName dictionary, of whatever type the entities have.
@[ext] structure NSManagedObjectModel (Entities : Type) where
  entitiesByName : Entities
deriving DecidableEq, Repr

-- A ".mom" file of a ".momd" directory; contents is none where
-- NSManagedObjectModel(contentsOf:) fails on it.
structure Resource (Entities : Type) where
  subdirectory : String
  name : String
  contents : Option (NSManagedObjectModel Entities)

structure Store (Entities Content : Type) where
  entities : Entities
  content : Content
deriving DecidableEq, Repr

-- What the three fallible steps of one migration attempt do, and what a failed
-- mapping-model migration leaves behind at the temporary URL.
structure MigrationOutcome (Entities Content : Type) where
  migrated : Bool
  removed : Bool
  moved : Bool
  leftover : Option (Store Entities Content)

-- The surroundings the migration code reads: the main bundle, the search path,
-- Core Data's mapping models, and how the n-th migration attempt turns out.
structure Environment (Entities Content Mapping : Type) where
  momd : List (String × Option (NSManagedObjectModel Entities))
  mom : List (Resource Entities)
  applicationSupport : List String
  currentDirectory : List String
  mappingModel : NSManagedObjectModel Entities → NSManagedObjectModel Entities → Option Mapping
  inferredMappingModel : NSManagedObjectModel Entities → NSManagedObjectModel Entities → Option Mapping
  convert : Mapping → Content → Content
  outcomes : Nat → MigrationOutcome Entities Content

variable {Entities Content Mapping : Type} [DecidableEq Entities] [EmptyCollection Entities]

def emptyModel : NSManagedObjectModel Entities := ⟨∅⟩

def modelVersionsForName (env : Environment Entities Content Mapping) (name : String) :
    List (NSManagedObjectModel Entities) :=
  (env.mom.filter fun resource => resource.subdirectory = name ++ ".momd").filterMap Resource.contents

def uncloudNotesModelNamed (env : Environment Entities Content Mapping) (name : String) :
    NSManagedObjectModel Entities :=
  match env.mom.find? fun resource =>
      resource.subdirectory = "UnCloudNotesDataModel.momd" && resource.name = name with
  | some resource => resource.contents.getD emptyModel
  | none => emptyModel

def version1 (env : Environment Entities Content Mapping) : NSManagedObjectModel Entities :=
  uncloudNotesModelNamed env "UnCloudNotesDataModel.momd"

def version2 (env : Environment Entities Content Mapping) : NSManagedObjectModel Entities :=
  uncloudNotesModelNamed env "UnCloudNotesDataModel v2"

def version3 (env : Environment Entities Content Mapping) : NSManagedObjectModel Entities :=
  uncloudNotesModelNamed env "UnCloudNotesDataModel v3"

def version4 (env : Environment Entities Content Mapping) : NSManagedObjectModel Entities :=
  uncloudNotesModelNamed env "UnCloudNotesDataModel v4"

-- The lazy currentModel never changes once read: the bundle does not.
def currentModel (env : Environment Entities Content Mapping) (modelName : String) :
    NSManagedObjectModel Entities :=
  match env.momd.find? fun entry => entry.1 = modelName with
  | some entry => entry.2.getD emptyModel
  | none => emptyModel

inductive Version where
  | one
  | two
  | three
  | four
deriving DecidableEq, Repr

def Version.next : Version → Version
  | .one => .two
  | .two => .three
  | .three => .four
  | .four => .four

-- The versions a store of the given version still has to be migrated from.
def Version.remaining : Version → List Version
  | .one => [.one, .two, .three]
  | .two => [.two, .three]
  | .three => [.three]
  | .four => []

def versionModel (env : Environment Entities Content Mapping) : Version → NSManagedObjectModel Entities
  | .one => version1 env
  | .two => version2 env
  | .three => version3 env
  | .four => version4 env

-- The bundle holds the four version models, each under the name its lookup
-- asks for, and no other model.
structure LoadsVersions (env : Environment Entities Content Mapping) (modelName : String)
    (models : Version → NSManagedObjectModel Entities) : Prop where
  lookup : ∀ version, versionModel env version = models version
  enumerated : ∀ model, model ∈ modelVersionsForName env modelName ↔ ∃ version, model = models version
  distinct : Function.Injective models

structure HoldsVersions (env : Environment Entities Content Mapping) (modelName : String)
    (models : Version → NSManagedObjectModel Entities) : Prop extends LoadsVersions env modelName models where
  current : currentModel env modelName = models .four

theorem remaining_nil_iff (version : Version) : version.remaining = [] ↔ version = .four := by
  cases version <;> simp [Version.remaining]

end CultivationMotain.UnCloudNotes

import CultivationMotain.Foundation.PathLetters
import CultivationMotain.UnCloudNotes.DataMigrationManager

set_option autoImplicit false

namespace CultivationMotain.UnCloudNotes

open Foundation

variable {Entities Content Mapping : Type}

-- The manager examines the store that the stack opens.
def SameStore (env : Environment Entities Content Mapping) (manager : DataMigrationManager Entities)
    (stack : CoreDataStack) : Prop :=
  stack.storeURL env = some (manager.storeURL env)

theorem describing_relative (text component : String) :
    (appendingPathComponent (describing (some text)) component).startsWith "/" = false := by
  have opens : ∃ rest, (describing (some text)).toList = 'O' :: rest := by
    simp only [describing]
    rw [String.append_assoc, String.toList_append]
    exact ⟨_, rfl⟩
  obtain ⟨rest, shape⟩ := opens
  have front : ∃ more, (appendingPathComponent (describing (some text)) component).toList = 'O' :: more := by
    unfold appendingPathComponent
    by_cases empty : describing (some text) = ""
    · rw [empty] at shape
      cases shape
    · rw [if_neg empty]
      by_cases slash : (describing (some text)).endsWith "/" = true
      · rw [if_pos slash, String.toList_append, shape]
        exact ⟨_, rfl⟩
      · rw [if_neg slash, String.toList_append, String.toList_append, shape]
        exact ⟨_, rfl⟩
  obtain ⟨more, whole⟩ := front
  refine Bool.eq_false_iff.mpr fun absolute => ?_
  rw [String.startsWith_string_iff, whole] at absolute
  exact absurd (List.cons_prefix_cons.mp absolute).1 (by decide)

-- The description of the optional directory adds its wrapper to the path.
theorem manager_path_longer (env : Environment Entities Content Mapping) (manager : DataMigrationManager Entities)
    (stack : CoreDataStack) (storePath : String) (same : manager.storeName = stack.storeName)
    (first : env.applicationSupport.head? = some storePath) :
    ∃ url, stack.storeURL env = some url ∧
      letterCount url.pathComponents < letterCount (manager.storeURL env).pathComponents := by
  refine ⟨_, by rw [CoreDataStack.storeURL, first, Option.map_some], ?_⟩
  have wrapped := describing_letters storePath
  have from_root : ∀ count : Nat, (if (appendingPathComponent storePath (stack.storeName ++ ".sqlite")).startsWith "/"
      then 0 else count) ≤ count := by
    intro count
    split_ifs
    · exact Nat.zero_le count
    · exact Nat.le_refl count
  have base := from_root (letterCount env.currentDirectory)
  rw [DataMigrationManager.storeURL, first, same, file_url_count, file_url_count, describing_relative,
    appending_letters, appending_letters, List.length_append, List.length_append]
  simp only [Bool.false_eq_true, if_false]
  omega

theorem store_location_differs (env : Environment Entities Content Mapping) (manager : DataMigrationManager Entities)
    (stack : CoreDataStack) (same : manager.storeName = stack.storeName) (directories : env.applicationSupport ≠ []) :
    ¬ SameStore env manager stack := by
  intro agree
  obtain ⟨storePath, others, shape⟩ := List.exists_cons_of_ne_nil directories
  obtain ⟨url, opened, longer⟩ := manager_path_longer env manager stack storePath same (by rw [shape]; rfl)
  obtain rfl := Option.some.inj (opened.symm.trans agree)
  exact Nat.lt_irrefl _ longer

def notesStack : CoreDataStack := ⟨"UnCloudNotesDataModel", "UnCloudNotes", none⟩

theorem store_location_differs_notes :
    ¬ SameStore (sampleEnvironment ⟨true, true, true, none⟩) (.new "UnCloudNotes" "UnCloudNotesDataModel") notesStack :=
  store_location_differs _ _ notesStack rfl (by decide)

theorem manager_describes_optional :
    ¬ ∀ (env : Environment EntityList String Unit) (storeName : String), env.applicationSupport ≠ [] →
      SameStore env (.new storeName "UnCloudNotesDataModel") ⟨"UnCloudNotesDataModel", storeName, none⟩ := by
  intro all
  have agree := all (sampleEnvironment ⟨true, true, true, none⟩) "UnCloudNotes" (by decide)
  obtain ⟨url, opened, longer⟩ := manager_path_longer (sampleEnvironment ⟨true, true, true, none⟩)
    (.new "UnCloudNotes" "UnCloudNotesDataModel") notesStack _ rfl rfl
  obtain rfl := Option.some.inj (opened.symm.trans agree)
  exact Nat.lt_irrefl _ longer

end CultivationMotain.UnCloudNotes

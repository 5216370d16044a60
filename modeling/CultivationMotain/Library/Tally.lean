import Mathlib.Data.List.AList
import Mathlib.Data.List.Dedup

set_option autoImplicit false

namespace Tally

universe u

variable {α : Type u} [DecidableEq α]

abbrev Counts (α : Type u) := AList fun _ : α => Nat

def add (counts : Counts α) (key : α) : Counts α :=
  match counts.lookup key with
  | some number => counts.insert key (number + 1)
  | none => counts.insert key 1

def tally (keys : List α) : Counts α := keys.foldl add ∅

theorem lookup_add (counts : Counts α) (key other : α) :
    (add counts key).lookup other =
      if other = key then some ((counts.lookup key).getD 0 + 1) else counts.lookup other := by
  by_cases same : other = key
  · subst same
    rw [if_pos rfl, add]
    cases counts.lookup other with
    | none => exact AList.lookup_insert counts
    | some number => exact AList.lookup_insert counts
  · rw [if_neg same, add]
    cases counts.lookup key with
    | none => exact AList.lookup_insert_ne same
    | some number => exact AList.lookup_insert_ne same

-- By induction on the keys, from any counts, of which the fold keeps the rest.
theorem lookup_fold (keys : List α) (counts : Counts α) (key : α) :
    (keys.foldl add counts).lookup key =
      if key ∈ keys then some ((counts.lookup key).getD 0 + keys.count key) else counts.lookup key := by
  induction keys generalizing counts with
  | nil => rfl
  | cons first rest ih =>
      rw [List.foldl_cons, ih, lookup_add]
      by_cases same : key = first
      · subst same
        by_cases again : key ∈ rest
        · simp [again, Nat.add_assoc, Nat.add_comm 1]
        · simp [again, List.count_eq_zero_of_not_mem again]
      · simp [same, Ne.symm same]

theorem lookup_tally (keys : List α) (key : α) :
    (tally keys).lookup key = if key ∈ keys then some (keys.count key) else none := by
  rw [tally, lookup_fold, AList.lookup_empty, Option.getD_none, Nat.zero_add]

theorem tally_entries (keys : List α) :
    (tally keys).entries.Perm (keys.dedup.map fun key => ⟨key, keys.count key⟩) := by
  have distinct : (keys.dedup.map fun key => (⟨key, keys.count key⟩ : (_ : α) × Nat)).Nodup :=
    (List.nodup_dedup keys).map fun _ _ same => congrArg Sigma.fst same
  refine (List.perm_ext_iff_of_nodup (tally keys).nodupKeys.nodup distinct).mpr ?_
  rintro ⟨key, number⟩
  have found : (⟨key, number⟩ : (_ : α) × Nat) ∈ (tally keys).entries ↔ (tally keys).lookup key = some number :=
    AList.mem_lookup_iff.symm
  rw [found, lookup_tally]
  by_cases member : key ∈ keys
  · simp [member]
  · simp [member]

end Tally

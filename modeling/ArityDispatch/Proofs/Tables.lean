import ArityDispatch.Table
import Mathlib.Data.List.Basic
import Mathlib.Data.List.Nodup

/-!
# Tables without repeated keys

Every table that is made by the operations on tables has each key once. Then what a table
holds is the same whether it is read entry by entry or looked up by key.
-/

namespace ArityDispatch.Table

variable {κ α : Type} {t : Table κ α} {j k : κ} {a : α}

/-- No key has two entries. -/
def Unique (t : Table κ α) : Prop := t.keys.Nodup

theorem unique_empty : (⟨[]⟩ : Table κ α).Unique := List.nodup_nil

theorem size_eq (t : Table κ α) : t.size = t.keys.length := by
  rw [size, keys, List.length_map]

theorem mem_keys_iff : k ∈ t.keys ↔ ∃ a, (k, a) ∈ t.entries := by
  simp [keys]

theorem mem_values_iff : a ∈ t.values ↔ ∃ k, (k, a) ∈ t.entries := by
  simp [values]

theorem keys_filterKeys (t : Table κ α) (p : κ → Bool) :
    (t.filterKeys p).keys = t.keys.filter p := by
  rw [keys, filterKeys, keys, List.filter_map]
  rfl

theorem Unique.filterKeys (h : t.Unique) (p : κ → Bool) : (t.filterKeys p).Unique := by
  rw [Unique, keys_filterKeys]
  exact h.filter p

theorem filterKeys_eq_self {p : κ → Bool} (h : ∀ k ∈ t.keys, p k = true) : t.filterKeys p = t := by
  have hall : ∀ e ∈ t.entries, p e.1 = true := fun e he => h e.1 (mem_keys_iff.mpr ⟨e.2, he⟩)
  rw [filterKeys, List.filter_eq_self.mpr hall]

variable [DecidableEq κ]

theorem mem_entries_of_get? (h : t.get? k = some a) : (k, a) ∈ t.entries := by
  obtain ⟨e, he, rfl⟩ := Option.map_eq_some_iff.mp h
  have hkey : e.1 = k := by simpa using List.find?_some he
  exact hkey ▸ List.mem_of_find?_eq_some he

theorem mem_keys_iff_isSome : k ∈ t.keys ↔ (t.get? k).isSome := by
  rw [mem_keys_iff, get?, Option.isSome_map, List.find?_isSome]
  simp

theorem Unique.mem_entries_iff (h : t.Unique) : (k, a) ∈ t.entries ↔ t.get? k = some a := by
  refine ⟨fun hmem => ?_, mem_entries_of_get?⟩
  obtain ⟨b, hb⟩ :=
    Option.isSome_iff_exists.mp (mem_keys_iff_isSome.mp (mem_keys_iff.mpr ⟨a, hmem⟩))
  have heq := List.inj_on_of_nodup_map h hmem (mem_entries_of_get? hb) rfl
  rw [hb, (Prod.mk.inj heq).2]

theorem Unique.mem_values_iff (h : t.Unique) : a ∈ t.values ↔ ∃ k, t.get? k = some a := by
  simp only [Table.mem_values_iff, h.mem_entries_iff]

/-! ## Keys after each operation -/

theorem keys_erase (t : Table κ α) (k : κ) : (t.erase k).keys = t.keys.filter (· ≠ k) :=
  keys_filterKeys t fun j => decide (j ≠ k)

theorem keys_insert (t : Table κ α) (k : κ) (a : α) :
    (t.insert k a).keys = t.keys.filter (· ≠ k) ++ [k] := by
  rw [← keys_erase]
  simp [keys, insert]

theorem keys_update (t : Table κ α) (k : κ) (f : α → α) : (t.update k f).keys = t.keys := by
  rw [keys, update, List.map_map, keys]
  refine List.map_congr_left fun e _ => ?_
  by_cases he : e.1 = k <;> simp [he]

theorem mem_keys_insert {a : α} : j ∈ (t.insert k a).keys ↔ j ∈ t.keys ∨ j = k := by
  rw [keys_insert]
  by_cases hj : j = k <;> simp [hj]

theorem erase_of_not_mem (h : k ∉ t.keys) : t.erase k = t := by
  have hall : ∀ e ∈ t.entries, e.1 ≠ k := fun e he hek => h (mem_keys_iff.mpr ⟨e.2, hek ▸ he⟩)
  rw [erase, List.filter_eq_self.mpr]
  simpa using hall

theorem entries_insert_of_not_mem (h : k ∉ t.keys) :
    (t.insert k a).entries = t.entries ++ [(k, a)] := by
  rw [insert, erase_of_not_mem h]

theorem Unique.erase (h : t.Unique) (k : κ) : (t.erase k).Unique :=
  h.filterKeys fun j => decide (j ≠ k)

theorem Unique.insert (h : t.Unique) (k : κ) (a : α) : (t.insert k a).Unique := by
  rw [Unique, keys_insert]
  refine (List.Nodup.filter _ h).append (List.nodup_singleton k) ?_
  rw [List.disjoint_singleton]
  simp

theorem Unique.update (h : t.Unique) (k : κ) (f : α → α) : (t.update k f).Unique := by
  rwa [Unique, keys_update]

end ArityDispatch.Table

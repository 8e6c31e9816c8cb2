/-!
# Tables

A table holds at most one entry for each key in use and remembers the order in which
keys were first stored. Cells, handles, runtimes and interned names are all kept in
tables, so each operation is described once, by what it does to `get?`.
-/

namespace ArityDispatch

structure Table (κ α : Type) where
  entries : List (κ × α) := []
deriving Repr

namespace Table

variable {κ α : Type} [DecidableEq κ]

instance : Inhabited (Table κ α) := ⟨{}⟩

def get? (t : Table κ α) (k : κ) : Option α :=
  (t.entries.find? fun e => e.1 = k).map Prod.snd

def keys (t : Table κ α) : List κ := t.entries.map Prod.fst

def values (t : Table κ α) : List α := t.entries.map Prod.snd

def size (t : Table κ α) : Nat := t.entries.length

def erase (t : Table κ α) (k : κ) : Table κ α :=
  ⟨t.entries.filter fun e => e.1 ≠ k⟩

/-- Stores `a` under `k`; an entry already stored there is dropped first. -/
def insert (t : Table κ α) (k : κ) (a : α) : Table κ α :=
  ⟨(t.erase k).entries ++ [(k, a)]⟩

/-- Changes the entry under `k` where it stands; other keys and the order stay. -/
def update (t : Table κ α) (k : κ) (f : α → α) : Table κ α :=
  ⟨t.entries.map fun e => if e.1 = k then (e.1, f e.2) else e⟩

def filterKeys (t : Table κ α) (p : κ → Bool) : Table κ α :=
  ⟨t.entries.filter fun e => p e.1⟩

@[simp] theorem get?_empty (k : κ) : (⟨[]⟩ : Table κ α).get? k = none := rfl

theorem get?_filterKeys (t : Table κ α) (p : κ → Bool) (k : κ) :
    (t.filterKeys p).get? k = if p k then t.get? k else none := by
  obtain ⟨es⟩ := t
  unfold get? filterKeys
  induction es with
  | nil => simp
  | cons e es ih =>
    by_cases hp : p e.1 <;> by_cases hk : e.1 = k <;> simp_all

theorem get?_erase (t : Table κ α) (k j : κ) :
    (t.erase k).get? j = if j = k then none else t.get? j := by
  have h := get?_filterKeys t (fun i => decide (i ≠ k)) j
  have e : t.filterKeys (fun i => decide (i ≠ k)) = t.erase k := rfl
  rw [← e, h]
  by_cases hj : j = k <;> simp [hj]

theorem get?_insert (t : Table κ α) (k j : κ) (a : α) :
    (t.insert k a).get? j = if j = k then some a else t.get? j := by
  have h := get?_erase t k j
  unfold get? at h ⊢
  simp only [insert, List.find?_append]
  by_cases hj : j = k
  · subst hj
    simp only [if_true, Option.map_eq_none_iff] at h
    simp [h]
  · rw [if_neg hj] at h ⊢
    rw [← h]
    cases (t.erase k).entries.find? (fun e => decide (e.1 = j)) with
    | none => simp [Ne.symm hj]
    | some e => simp

theorem get?_update (t : Table κ α) (k j : κ) (f : α → α) :
    (t.update k f).get? j = if j = k then (t.get? j).map f else t.get? j := by
  obtain ⟨es⟩ := t
  unfold get? update
  induction es with
  | nil => simp
  | cons e es ih =>
    simp only [List.map_cons, List.find?_cons]
    by_cases hk : e.1 = k <;> by_cases hj : e.1 = j <;> by_cases hjk : j = k <;> simp_all

end Table

end ArityDispatch

import ArityDispatch.Value.Collection
import Mathlib.Data.List.Basic

/-!
# What maps and sets keep of what they are built from

A set keeps some of its items, and a map keeps the keys that a set would keep, each with one
of the values. The elements of a set and the keys of a map are pairwise unequal, in the
direction in which building compares them: no later one is found equal to an earlier one.
-/

namespace ArityDispatch.Value

/-- No element is found equal to a later one. -/
def Unequal (items : List Value) : Prop := items.Pairwise fun v w => v.eq w = false

section
variable {items : List Value} {es : List (Value × Value)} {P : Value → Prop}

/-! ## Sets -/

theorem Unequal.add (h : Unequal items) (v : Value) : Unequal (addItem items v) := by
  unfold addItem
  split_ifs with hv
  · exact h
  · have hall : ∀ x ∈ items, x.eq v = false := by simpa using hv
    exact List.pairwise_append.mpr ⟨h, List.pairwise_singleton _ v, by simpa using hall⟩

theorem forall_addItem (h : ∀ x ∈ items, P x) {v : Value} (hv : P v) :
    ∀ x ∈ addItem items v, P x := by
  intro x hx
  unfold addItem at hx
  split_ifs at hx
  · exact h x hx
  · rcases List.mem_append.mp hx with hx | hx
    · exact h x hx
    · exact List.mem_singleton.mp hx ▸ hv

theorem unequal_itemsOf (items : List Value) : Unequal (itemsOf items) := by
  have hfold : ∀ acc, Unequal acc → Unequal (items.foldl addItem acc) := by
    induction items with
    | nil => exact fun acc h => h
    | cons v items ih => exact fun acc h => ih _ (h.add v)
  exact hfold [] List.Pairwise.nil

theorem forall_itemsOf (h : ∀ x ∈ items, P x) : ∀ x ∈ itemsOf items, P x := by
  have hfold : ∀ acc, (∀ x ∈ acc, P x) → ∀ x ∈ items.foldl addItem acc, P x := by
    induction items with
    | nil => exact fun acc hacc => hacc
    | cons v items ih =>
      intro acc hacc
      have htail : ∀ x ∈ items, P x := fun x hx => h x (List.mem_cons_of_mem v hx)
      exact ih htail _ (forall_addItem hacc (h v List.mem_cons_self))
  exact hfold [] (by simp)

/-! ## Maps -/

/-- The keys of a map are kept as the items of a set are. -/
theorem keys_putEntry (es : List (Value × Value)) (k v : Value) :
    (putEntry es k v).map Prod.fst = addItem (es.map Prod.fst) k := by
  induction es with
  | nil => rfl
  | cons e es ih =>
    cases he : e.1.eq k with
    | true => simp [putEntry, addItem, he]
    | false =>
      simp only [putEntry, he, Bool.false_eq_true, if_false, List.map_cons, ih, addItem,
        List.any_cons, Bool.false_or]
      split_ifs <;> rfl

theorem keys_entriesOf (pairs : List (Value × Value)) :
    (entriesOf pairs).map Prod.fst = itemsOf (pairs.map Prod.fst) := by
  have hfold : ∀ acc : List (Value × Value),
      (pairs.foldl (fun es e => putEntry es e.1 e.2) acc).map Prod.fst =
        (pairs.map Prod.fst).foldl addItem (acc.map Prod.fst) := by
    induction pairs with
    | nil => exact fun acc => rfl
    | cons e pairs ih =>
      intro acc
      rw [List.foldl_cons, ih, keys_putEntry]
      rfl
  exact hfold []

theorem forall_putEntry (h : ∀ e ∈ es, P e.1 ∧ P e.2) {k v : Value} (hk : P k) (hv : P v) :
    ∀ e ∈ putEntry es k v, P e.1 ∧ P e.2 := by
  induction es with
  | nil => simpa [putEntry] using ⟨hk, hv⟩
  | cons e es ih =>
    have he := h e List.mem_cons_self
    have htail : ∀ x ∈ es, P x.1 ∧ P x.2 := fun x hx => h x (List.mem_cons_of_mem e hx)
    unfold putEntry
    split_ifs
    · exact List.forall_mem_cons.mpr ⟨⟨he.1, hv⟩, htail⟩
    · exact List.forall_mem_cons.mpr ⟨he, ih htail⟩

theorem forall_entriesOf {pairs : List (Value × Value)} (h : ∀ e ∈ pairs, P e.1 ∧ P e.2) :
    ∀ e ∈ entriesOf pairs, P e.1 ∧ P e.2 := by
  have hfold : ∀ acc : List (Value × Value), (∀ e ∈ acc, P e.1 ∧ P e.2) →
      ∀ e ∈ pairs.foldl (fun es e => putEntry es e.1 e.2) acc, P e.1 ∧ P e.2 := by
    induction pairs with
    | nil => exact fun acc hacc => hacc
    | cons e pairs ih =>
      intro acc hacc
      have he := h e List.mem_cons_self
      have htail : ∀ x ∈ pairs, P x.1 ∧ P x.2 := fun x hx => h x (List.mem_cons_of_mem e hx)
      exact ih htail _ (forall_putEntry hacc he.1 he.2)
  exact hfold [] (by simp)

end

end ArityDispatch.Value

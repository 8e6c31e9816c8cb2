import ArityDispatch.Proofs.Values.Collections
import ArityDispatch.Session.Literal

/-!
# Stocks of values

A program makes its values one after the other. Each collection is made from values that
are there already, shared in any way, and receives an identity that no collection has yet;
maps and sets are made by `Value.mapOf` and `Value.setOf`. A list of all values made so far
is a `Stock`. Copies need no step of their own, since a copy is the value itself, and what is
taken out of a collection was in the stock before the collection.

Every stock is `Coherent`: an identity says which collection it is, keys and elements are
pairwise unequal, and the stock holds what its collections hold.
-/

namespace ArityDispatch

namespace Value

/-- The identity of a collection. -/
def identity? : Value → Option Nat
  | .list id _ | .vector id _ | .map id _ | .set id _ => some id
  | _ => none

/-- What a collection holds directly, with the keys and values of a map in turn. -/
def elements : Value → List Value
  | .list _ items | .vector _ items | .set _ items => items
  | .map _ entries => entries.flatMap fun e => [e.1, e.2]
  | _ => []

/-- A map has no two equal keys, and a set no two equal elements. -/
def Distinct : Value → Prop
  | .map _ entries => Unequal (entries.map Prod.fst)
  | .set _ items => Unequal items
  | _ => True

theorem elements_of_identity_none {v : Value} (h : v.identity? = none) : v.elements = [] := by
  cases v <;> first | rfl | (cases h)

theorem distinct_of_identity_none {v : Value} (h : v.identity? = none) : v.Distinct := by
  cases v <;> trivial

theorem distinct_mapOf (id : Nat) (pairs : List (Value × Value)) : (mapOf id pairs).Distinct := by
  simp only [mapOf, Distinct, keys_entriesOf]
  exact unequal_itemsOf _

theorem mem_elements_map {i : Nat} {entries : List (Value × Value)} {e : Value × Value}
    (he : e ∈ entries) :
    e.1 ∈ (Value.map i entries).elements ∧ e.2 ∈ (Value.map i entries).elements :=
  ⟨List.mem_flatMap.mpr ⟨e, he, by simp⟩, List.mem_flatMap.mpr ⟨e, he, by simp⟩⟩

theorem forall_elements_map {id : Nat} {entries : List (Value × Value)} {P : Value → Prop} :
    (∀ v ∈ (Value.map id entries).elements, P v) ↔ ∀ e ∈ entries, P e.1 ∧ P e.2 := by
  constructor
  · intro h e he
    exact ⟨h e.1 (mem_elements_map he).1, h e.2 (mem_elements_map he).2⟩
  · intro h v hv
    obtain ⟨e, he, hv⟩ := List.mem_flatMap.mp hv
    rcases List.mem_cons.mp hv with rfl | hv
    · exact (h e he).1
    · exact List.mem_singleton.mp hv ▸ (h e he).2

end Value

/-- No collection of the stock has this identity. -/
def Fresh (id : Nat) (vs : List Value) : Prop := ∀ v ∈ vs, v.identity? ≠ some id

instance (id : Nat) (vs : List Value) : Decidable (Fresh id vs) :=
  inferInstanceAs (Decidable (∀ v ∈ vs, v.identity? ≠ some id))

inductive Stock : List Value → Prop
  | empty : Stock []
  | plain {vs : List Value} {v : Value} : Stock vs → v.identity? = none → Stock (v :: vs)
  | list {vs items : List Value} {id : Nat} : Stock vs → Fresh id vs → items ⊆ vs →
      Stock (.list id items :: vs)
  | vector {vs items : List Value} {id : Nat} : Stock vs → Fresh id vs → items ⊆ vs →
      Stock (.vector id items :: vs)
  | map {vs : List Value} {pairs : List (Value × Value)} {id : Nat} : Stock vs → Fresh id vs →
      (∀ e ∈ pairs, e.1 ∈ vs ∧ e.2 ∈ vs) → Stock (Value.mapOf id pairs :: vs)
  | set {vs items : List Value} {id : Nat} : Stock vs → Fresh id vs → items ⊆ vs →
      Stock (Value.setOf id items :: vs)

/-- What values that were made one after the other have in common. -/
structure Coherent (s : Value → Prop) : Prop where
  closed : ∀ {v w}, s v → w ∈ v.elements → s w
  unique : ∀ {v w id}, s v → s w → v.identity? = some id → w.identity? = some id → v = w
  distinct : ∀ {v}, s v → v.Distinct

/-- One more value keeps a stock coherent. -/
theorem Coherent.cons {vs : List Value} {v : Value} (h : Coherent (· ∈ vs))
    (hfresh : ∀ id, v.identity? = some id → Fresh id vs) (hmem : ∀ w ∈ v.elements, w ∈ vs)
    (hdistinct : v.Distinct) : Coherent (· ∈ v :: vs) where
  closed {u w} hu hw := by
    rcases List.mem_cons.mp hu with rfl | hu
    · exact List.mem_cons_of_mem _ (hmem w hw)
    · exact List.mem_cons_of_mem _ (h.closed hu hw)
  unique {u w id} hu hw hui hwi := by
    rcases List.mem_cons.mp hu with rfl | hu' <;> rcases List.mem_cons.mp hw with rfl | hw'
    · rfl
    · exact absurd hwi (hfresh id hui w hw')
    · exact absurd hui (hfresh id hwi u hu')
    · exact h.unique hu' hw' hui hwi
  distinct {u} hu := by
    rcases List.mem_cons.mp hu with rfl | hu
    · exact hdistinct
    · exact h.distinct hu

theorem Stock.coherent {vs : List Value} (h : Stock vs) : Coherent (· ∈ vs) := by
  induction h with
  | empty => exact ⟨by simp, by simp, by simp⟩
  | plain _ hv ih =>
    refine ih.cons (by simp [hv]) ?_ (Value.distinct_of_identity_none hv)
    simp [Value.elements_of_identity_none hv]
  | list _ hfresh hitems ih =>
    exact ih.cons (fun _ hid => Option.some.inj hid ▸ hfresh) hitems trivial
  | vector _ hfresh hitems ih =>
    exact ih.cons (fun _ hid => Option.some.inj hid ▸ hfresh) hitems trivial
  | map _ hfresh hpairs ih =>
    refine ih.cons (fun _ hid => Option.some.inj hid ▸ hfresh) ?_ (Value.distinct_mapOf _ _)
    exact Value.forall_elements_map.mpr (Value.forall_entriesOf hpairs)
  | set _ hfresh hitems ih =>
    refine ih.cons (fun _ hid => Option.some.inj hid ▸ hfresh) ?_ (Value.unequal_itemsOf _)
    exact Value.forall_itemsOf hitems

/-! ## A stock with both zeros and a NaN -/

namespace Stock

def zero : Value := .real ⟨0⟩

def negativeZero : Value := .real ⟨0x8000000000000000⟩

def nan : Value := .real ⟨0x7FF8000000000000⟩

/-- A list that equals only its copies. -/
def nanList : Value := .list 0 [nan]

def zeroMap : Value := Value.mapOf 1 [(zero, nanList), (nanList, zero)]

/-- The same entries in the other order, with the other zero. -/
def negativeMap : Value := Value.mapOf 2 [(nanList, negativeZero), (negativeZero, nanList)]

def mixedMap : Value := Value.mapOf 3 [(zero, nanList), (nanList, negativeZero)]

def zeros : List Value := [mixedMap, negativeMap, zeroMap, nanList, nan, negativeZero, zero]

theorem stock_zeros : Stock zeros := by
  have hnumbers : Stock [nan, negativeZero, zero] := .plain (.plain (.plain .empty rfl) rfl) rfl
  have hlist : Stock [nanList, nan, negativeZero, zero] := .list hnumbers (by decide) (by simp)
  have hzero : Stock [zeroMap, nanList, nan, negativeZero, zero] :=
    .map hlist (by decide) (by simp)
  have hnegative : Stock [negativeMap, zeroMap, nanList, nan, negativeZero, zero] :=
    .map hzero (by decide) (by simp)
  exact .map hnegative (by decide) (by simp)

end Stock

end ArityDispatch

import ArityDispatch.Proofs.Values.Equality
import Mathlib.Data.List.Induction

/-!
# First occurrences and last values

What maps and sets keep, said of the list that they are built from. A set keeps the items that
equal no earlier item, and finds the first item that equals a probe. A map keeps the keys that
a set would keep, and finds the value of the last pair whose key equals a probe. What is kept
is kept again when it is built anew.

Building compares an item with the kept ones only, while `firstOccurrences` and `lastValue?`
speak of all the others. That both come to the same needs equality to be symmetric and
transitive, and so the laws hold of values that were made one after the other.
-/

namespace ArityDispatch

namespace Value

/-- The items that equal no earlier one, in their order. -/
def firstOccurrences (items : List Value) : List Value :=
  (items.zipIdx.filter fun p => (items.take p.2).all fun v => !v.eq p.1).map Prod.fst

/-- The value of the last pair whose key equals `k`. -/
def lastValue? (pairs : List (Value × Value)) (k : Value) : Option Value :=
  (pairs.reverse.find? fun e => e.1.eq k).map Prod.snd

section
variable {items : List Value} {pairs es : List (Value × Value)}

/-! ## One more item, one more pair -/

theorem itemsOf_concat (items : List Value) (v : Value) :
    itemsOf (items ++ [v]) = addItem (itemsOf items) v :=
  List.foldl_concat ..

theorem entriesOf_concat (pairs : List (Value × Value)) (e : Value × Value) :
    entriesOf (pairs ++ [e]) = putEntry (entriesOf pairs) e.1 e.2 :=
  List.foldl_concat ..

theorem firstOccurrences_concat (items : List Value) (v : Value) :
    firstOccurrences (items ++ [v]) =
      firstOccurrences items ++ if items.any (·.eq v) then [] else [v] := by
  have hold : ∀ p ∈ items.zipIdx, ((items ++ [v]).take p.2).all (fun w => !w.eq p.1) =
      (items.take p.2).all fun w => !w.eq p.1 := by
    intro p hp
    have hlt : p.2 < items.length := List.snd_lt_of_mem_zipIdx hp
    rw [List.take_append_of_le_length hlt.le]
  have hnew : (items.all fun w => !w.eq v) = !items.any (·.eq v) := by
    rw [List.not_any_eq_all_not]
  simp only [firstOccurrences, List.zipIdx_append, List.filter_append, List.map_append,
    List.filter_congr hold]
  congr 1
  cases hany : items.any (·.eq v) <;> simp [hnew, hany]

theorem findEntry_cons (e : Value × Value) (es : List (Value × Value)) (k : Value) :
    findEntry (e :: es) k = if e.1.eq k then some e.2 else findEntry es k := by
  unfold findEntry
  rw [List.find?_cons]
  cases e.1.eq k <;> rfl

theorem lastValue?_concat (pairs : List (Value × Value)) (e : Value × Value) (k : Value) :
    lastValue? (pairs ++ [e]) k = if e.1.eq k then some e.2 else lastValue? pairs k := by
  simp only [lastValue?, List.reverse_append, List.reverse_singleton, List.singleton_append,
    List.find?_cons]
  cases e.1.eq k <;> rfl

theorem lastValue?_eq_none_iff (pairs : List (Value × Value)) (k : Value) :
    lastValue? pairs k = none ↔ ∀ e ∈ pairs, e.1.eq k = false := by
  simp [lastValue?]

/-! ## What is kept is kept again -/

theorem itemsOf_eq_self (h : Unequal items) : itemsOf items = items := by
  induction items using List.reverseRecOn with
  | nil => rfl
  | append_singleton items v ih =>
    obtain ⟨hitems, -, hv⟩ := List.pairwise_append.mp h
    have hnone : items.any (·.eq v) = false := by simpa using hv
    rw [itemsOf_concat, ih hitems, addItem, hnone]
    rfl

theorem putEntry_eq_concat {k : Value} (h : ∀ e ∈ es, e.1.eq k = false) (v : Value) :
    putEntry es k v = es ++ [(k, v)] := by
  induction es with
  | nil => rfl
  | cons e es ih =>
    obtain ⟨he, hes⟩ := List.forall_mem_cons.mp h
    simp only [putEntry, he, Bool.false_eq_true, if_false, ih hes, List.cons_append]

theorem entriesOf_eq_self (h : Unequal (es.map Prod.fst)) : entriesOf es = es := by
  induction es using List.reverseRecOn with
  | nil => rfl
  | append_singleton es e ih =>
    rw [List.map_append] at h
    obtain ⟨hes, -, he⟩ := List.pairwise_append.mp h
    have hnone : ∀ f ∈ es, f.1.eq e.1 = false := fun f hf =>
      he f.1 (List.mem_map_of_mem hf) e.1 (by simp)
    rw [entriesOf_concat, ih hes, putEntry_eq_concat hnone]

theorem forall_keys_entriesOf {P : Value → Prop} (h : ∀ e ∈ pairs, P e.1) :
    ∀ e ∈ entriesOf pairs, P e.1 := by
  intro e he
  have hkept : e.1 ∈ itemsOf (pairs.map Prod.fst) := keys_entriesOf pairs ▸ List.mem_map_of_mem he
  exact forall_itemsOf (List.forall_mem_map.mpr h) e.1 hkept

theorem unequal_keys_entriesOf (pairs : List (Value × Value)) :
    Unequal ((entriesOf pairs).map Prod.fst) := by
  rw [keys_entriesOf]
  exact unequal_itemsOf _

end

end Value

/-! ## Laws under a partial equivalence -/

namespace PartialEquivOn

open Value

variable {s : Value → Prop} {items : List Value} {pairs es : List (Value × Value)}

theorem unequal_both (h : PartialEquivOn s) (hitems : ∀ x ∈ items, s x) (hu : Unequal items) :
    items.Pairwise fun v w => v.eq w = false ∧ w.eq v = false :=
  hu.imp_of_mem fun hv hw hvw => ⟨hvw, h.eq_comm (hitems _ hw) (hitems _ hv) ▸ hvw⟩

/-- A set finds the first item that equals the probe, since an item is only left out for an
earlier one that equals the same probes. -/
theorem findItem_itemsOf (h : PartialEquivOn s) (hitems : ∀ x ∈ items, s x) {x : Value}
    (hx : s x) : findItem (itemsOf items) x = items.find? (·.eq x) := by
  induction items using List.reverseRecOn with
  | nil => rfl
  | append_singleton items v ih =>
    obtain ⟨hitems, hv⟩ := List.forall_mem_append.mp hitems
    have hv : s v := hv v List.mem_cons_self
    have hfind := ih hitems
    rw [itemsOf_concat, List.find?_append, ← hfind, addItem]
    split_ifs with hany
    · obtain ⟨y, hy, hyv⟩ := List.any_eq_true.mp hany
      have hys := forall_itemsOf hitems y hy
      cases hvx : v.eq x with
      | false => simp [hvx]
      | true =>
        have hfound : (findItem (itemsOf items) x).isSome :=
          List.find?_isSome.mpr ⟨y, hy, h.trans hys hv hx hyv hvx⟩
        rw [Option.or_of_isSome hfound]
    · exact List.find?_append

theorem itemsOf_eq_firstOccurrences (h : PartialEquivOn s) (hitems : ∀ x ∈ items, s x) :
    itemsOf items = firstOccurrences items := by
  induction items using List.reverseRecOn with
  | nil => rfl
  | append_singleton items v ih =>
    obtain ⟨hitems, hv⟩ := List.forall_mem_append.mp hitems
    have hfind := h.findItem_itemsOf hitems (hv v List.mem_cons_self)
    have hany : (itemsOf items).any (·.eq v) = items.any (·.eq v) := by
      rw [← List.isSome_find?, ← List.isSome_find?, ← hfind]
      rfl
    rw [itemsOf_concat, firstOccurrences_concat, addItem, hany, ih hitems]
    split_ifs
    · rw [List.append_nil]
    · rfl

/-- Binding a key changes what is found under the keys that equal it, and nothing else. -/
theorem findEntry_putEntry (h : PartialEquivOn s) (hes : ∀ e ∈ es, s e.1) {k v p : Value}
    (hk : s k) (hp : s p) :
    findEntry (putEntry es k v) p = if k.eq p then some v else findEntry es p := by
  induction es with
  | nil => rw [putEntry, findEntry_cons]
  | cons e es ih =>
    obtain ⟨he, hes⟩ := List.forall_mem_cons.mp hes
    unfold putEntry
    split_ifs with hek hkp hkp
    · have hep := h.trans he hk hp hek hkp
      rw [findEntry_cons, if_pos hep]
    · have hep : ¬ e.1.eq p = true := fun hep => hkp (h.trans hk he hp (h.symm he hk hek) hep)
      rw [findEntry_cons, findEntry_cons, if_neg hep, if_neg hep]
    · have hep : ¬ e.1.eq p = true := fun hep => hek (h.trans he hp hk hep (h.symm hk hp hkp))
      rw [findEntry_cons, if_neg hep, ih hes, if_pos hkp]
    · rw [findEntry_cons, findEntry_cons, ih hes, if_neg hkp]

/-- A map finds the value of the last pair whose key equals the probe, although the key that it
keeps is the one of the first. -/
theorem findEntry_entriesOf (h : PartialEquivOn s) (hpairs : ∀ e ∈ pairs, s e.1) {k : Value}
    (hk : s k) : findEntry (entriesOf pairs) k = lastValue? pairs k := by
  induction pairs using List.reverseRecOn with
  | nil => rfl
  | append_singleton pairs e ih =>
    obtain ⟨hpairs, he⟩ := List.forall_mem_append.mp hpairs
    have hkeys := forall_keys_entriesOf hpairs
    rw [entriesOf_concat, h.findEntry_putEntry hkeys (he e List.mem_cons_self) hk, ih hpairs,
      lastValue?_concat]

end PartialEquivOn

end ArityDispatch

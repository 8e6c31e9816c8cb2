import ArityDispatch.Proofs.Calls.Parameters
import ArityDispatch.Proofs.Values.Occurrences

/-!
# Maps, sets and keywords in callee position

A map in callee position answers with the value of the last pair, of all those that it was
built from, whose key equals the argument. A keyword answers as a map that is asked for the
keyword. A set answers with the first of its items that equals the argument, which need not be
the argument itself. These answers are the same on every path, they run no body, and they
leave the store as it is.

A set that is handed over as arguments stands for the elements that it keeps, in their order.
-/

namespace ArityDispatch

open Value

variable {β : Type}

/-- On every path the call gives `v`, whatever bodies do, and leaves the store as it is. -/
def Gives (st : Store β) (source : Value) (xs : List Value) (v : Value) : Prop :=
  ∀ route : Route β, Carries source xs st route → ∀ run, route run = (.ok v, st)

section
variable {st : Store β} {source target : Value} {xs : List Value}

/-- A source that stands for no callable gives its answer on every path. -/
theorem Carries.eq_answer {route : Route β} (h : Carries source xs st route)
    (htarget : st.target source = .ok target) (hcallable : target.callable? = none)
    (run : Behaviour β) : route run = (target.answer xs, st) := by
  rw [h.eq_perform, Store.resolution_answer htarget hcallable]
  rfl

theorem gives_answer {v : Value} (htarget : st.target source = .ok target)
    (hcallable : target.callable? = none) (hanswer : target.answer xs = .ok v) :
    Gives st source xs v := by
  intro route hroute run
  rw [hroute.eq_answer htarget hcallable, hanswer]

end

/-! ## Maps and keywords -/

/-- A map keeps the keys that equal no earlier key, in their order and pairwise unequal; it
finds the value of the last pair whose key equals the probe, and nothing if there is none; and
it is the map of its own entries. Called with a key, it gives what it finds, or `nil` or the
second argument if it finds nothing, and a keyword called with the map gives the same. -/
theorem map_first_key_last_value {vs : List Value} {pairs : List (Value × Value)} (h : Stock vs)
    (hpairs : ∀ e ∈ pairs, e.1 ∈ vs ∧ e.2 ∈ vs) (id : Nat) (st : Store β) :
    (entriesOf pairs).map Prod.fst = firstOccurrences (pairs.map Prod.fst) ∧
    ((entriesOf pairs).map Prod.fst).Pairwise (fun k l => k.eq l = false ∧ l.eq k = false) ∧
    (∀ k ∈ vs, findEntry (entriesOf pairs) k = lastValue? pairs k ∧
      (findEntry (entriesOf pairs) k = none ↔ ∀ e ∈ pairs, e.1.eq k = false)) ∧
    entriesOf (entriesOf pairs) = entriesOf pairs ∧
    (∀ m, st.target m = .ok (Value.mapOf id pairs) → ∀ k ∈ vs,
      Gives st m [k] ((lastValue? pairs k).getD .nil) ∧
      ∀ d, Gives st m [k, d] ((lastValue? pairs k).getD d)) ∧
    ∀ m f name, st.target m = .ok (Value.mapOf id pairs) → st.target f = .ok (.keyword name) →
      let found := lastValue? pairs (.keyword name)
      Gives st m [.keyword name] (found.getD .nil) ∧
      Gives st f [Value.mapOf id pairs] (found.getD .nil) ∧
      ∀ d, Gives st m [.keyword name, d] (found.getD d) ∧
        Gives st f [Value.mapOf id pairs, d] (found.getD d) := by
  have hp := h.coherent.partialEquivOn
  have hkeys : ∀ k ∈ pairs.map Prod.fst, k ∈ vs :=
    List.forall_mem_map.mpr fun e he => (hpairs e he).1
  have hfind : ∀ k ∈ vs, findEntry (entriesOf pairs) k = lastValue? pairs k := fun k hk =>
    hp.findEntry_entriesOf (fun e he => (hpairs e he).1) hk
  refine ⟨?_, ?_, fun k hk => ⟨hfind k hk, ?_⟩, ?_, fun m hm k hk => ⟨?_, fun d => ?_⟩,
    fun m f name hm hf => ?_⟩
  · rw [keys_entriesOf, hp.itemsOf_eq_firstOccurrences hkeys]
  · rw [keys_entriesOf]
    exact hp.unequal_both (forall_itemsOf hkeys) (unequal_itemsOf _)
  · rw [hfind k hk, lastValue?_eq_none_iff]
  · exact entriesOf_eq_self (unequal_keys_entriesOf pairs)
  · exact hfind k hk ▸ gives_answer hm rfl rfl
  · exact hfind k hk ▸ gives_answer hm rfl rfl
  · -- a keyword has no identity, so it can always join the stock
    have hkeyword :
        findEntry (entriesOf pairs) (.keyword name) = lastValue? pairs (.keyword name) :=
      (h.plain rfl).coherent.partialEquivOn.findEntry_entriesOf
        (fun e he => List.mem_cons_of_mem _ (hpairs e he).1) List.mem_cons_self
    intro found
    rw [show found = findEntry (entriesOf pairs) (.keyword name) from hkeyword.symm]
    exact ⟨gives_answer hm rfl rfl, gives_answer hf rfl rfl, fun d =>
      ⟨gives_answer hm rfl rfl, gives_answer hf rfl rfl⟩⟩

/-- One zero binds again what the other has bound, and two NaNs are two keys that nothing
finds. -/
theorem map_first_key_last_value_zeros :
    let pairs := [(Stock.zero, Stock.nanList), (Stock.nan, Stock.zero), (Stock.nan, Stock.nanList),
      (Stock.negativeZero, Stock.nan)]
    let v : Var := ⟨5, "user", "m"⟩
    let st : Store Unit := { roots := ⟨[(5, some (Value.mapOf 4 pairs))]⟩, next := 9 }
    (entriesOf pairs).map Prod.fst = [Stock.zero, Stock.nan, Stock.nan] ∧
      Gives st (.var v) [Stock.zero] Stock.nan ∧
      Gives st (.var v) [Stock.nan, Stock.zero] Stock.zero ∧
      Gives st (.keyword "k") [Value.mapOf 4 pairs, Stock.zero] Stock.zero := by
  intro pairs v st
  have hpairs : ∀ e ∈ pairs, e.1 ∈ Stock.zeros ∧ e.2 ∈ Stock.zeros := by simp [pairs, Stock.zeros]
  have hzero : Stock.zero ∈ Stock.zeros := by simp [Stock.zeros]
  have hnan : Stock.nan ∈ Stock.zeros := by simp [Stock.zeros]
  obtain ⟨hkeys, -, -, -, hcalls, hkeywords⟩ :=
    map_first_key_last_value Stock.stock_zeros hpairs 4 st
  refine ⟨hkeys.trans rfl, (hcalls (.var v) rfl _ hzero).1, (hcalls (.var v) rfl _ hnan).2 _, ?_⟩
  exact ((hkeywords (.var v) (.keyword "k") "k" rfl rfl).2.2 Stock.zero).2

/-! ## Sets -/

/-- A set keeps the items that equal no earlier item, in their order and pairwise unequal; it
finds the first item that equals the probe, and nothing if there is none; and it is the set of
its own elements. Called with a probe, it gives what it finds or `nil`. Handed over as
arguments, it is a call with the elements that it keeps. -/
theorem set_first_items {vs items : List Value} (h : Stock vs) (hitems : items ⊆ vs) (id : Nat)
    (run : Behaviour β) (st : Store β) :
    itemsOf items = firstOccurrences items ∧
    (itemsOf items).Pairwise (fun v w => v.eq w = false ∧ w.eq v = false) ∧
    (∀ x ∈ vs, findItem (itemsOf items) x = items.find? (·.eq x) ∧
      (findItem (itemsOf items) x = none ↔ ∀ v ∈ items, v.eq x = false)) ∧
    itemsOf (itemsOf items) = itemsOf items ∧
    (∀ f, st.target f = .ok (Value.setOf id items) → ∀ x ∈ vs,
      Gives st f [x] ((items.find? (·.eq x)).getD .nil)) ∧
    ∀ f, st.apply run f (Value.setOf id items) = st.call run f (firstOccurrences items) ∧
      ∀ env, Boundary.finish env (Boundary.apply run (some f) (some (Value.setOf id items)) st) =
        Boundary.handOver env (st.call run f (firstOccurrences items)) := by
  have hp := h.coherent.partialEquivOn
  have hitems' : ∀ x ∈ items, x ∈ vs := hitems
  have hfind : ∀ x ∈ vs, findItem (itemsOf items) x = items.find? (·.eq x) := fun x hx =>
    hp.findItem_itemsOf hitems' hx
  have hkept := hp.itemsOf_eq_firstOccurrences hitems'
  have happly : ∀ f,
      st.apply run f (Value.setOf id items) = st.call run f (firstOccurrences items) := fun f =>
    hkept ▸ Store.apply_items run f st rfl
  refine ⟨hkept, ?_, fun x hx => ⟨hfind x hx, ?_⟩, ?_, fun f hf x hx => ?_,
    fun f => ⟨happly f, fun env => ?_⟩⟩
  · exact hp.unequal_both (forall_itemsOf hitems') (unequal_itemsOf items)
  · rw [hfind x hx, List.find?_eq_none]
    simp only [Bool.not_eq_true]
  · exact itemsOf_eq_self (unequal_itemsOf items)
  · exact hfind x hx ▸ gives_answer hf rfl rfl
  · rw [Boundary.finish_eq_handOver, ← happly]
    rfl

/-- A set of both zeros keeps the first, and gives it for the other. -/
theorem set_first_items_zeros :
    let items := [Stock.nan, Stock.negativeZero, Stock.nanList, Stock.zero, Stock.nan]
    let st : Store Unit := { next := 9 }
    itemsOf items = [Stock.nan, Stock.negativeZero, Stock.nanList, Stock.nan] ∧
      Gives st (Value.setOf 4 items) [Stock.zero] Stock.negativeZero ∧
      Gives st (Value.setOf 4 items) [Stock.nan] .nil := by
  intro items st
  have hitems : items ⊆ Stock.zeros := by simp [items, Stock.zeros]
  have hzero : Stock.zero ∈ Stock.zeros := by simp [Stock.zeros]
  have hnan : Stock.nan ∈ Stock.zeros := by simp [Stock.zeros]
  obtain ⟨hkept, -, -, -, hcalls, -⟩ := set_first_items Stock.stock_zeros hitems 4 echo st
  exact ⟨hkept.trans rfl, hcalls _ rfl _ hzero, hcalls _ rfl _ hnan⟩

end ArityDispatch

import ArityDispatch.Proofs.Values.Occurrences
import ArityDispatch.Proofs.Values.Twins
import Mathlib.Data.List.Perm.Basic

/-!
# The order of insertion

A set that is built from the same items in another order may keep other items, but each of
them equals one that the first set keeps: the elements match, in some order. This is shown
along the permutation. Adding two items the other way round gives matching elements, and so
does going on with the same items.

A map is built from the same pairs in another order, while pairs with equal keys stay in the
order in which they stand. Then for each key both maps see the same pairs one after the other,
so they keep the same first key and the same last value, and the entries are the same in some
order.

Matching elements are hashed alike. A NaN equals nothing, so every NaN is kept, and with one
in it a set or a map does not equal any other.
-/

namespace ArityDispatch

open Value

theorem Value.isNaN_of_eq {v w : Value} (h : v.eq w = true) :
    v.isNaN = false ∧ w.isNaN = false := by
  cases sameKind_of_eqWith h with
  | real x y =>
    have hxy := (Binary64.eq_iff x y).mp h
    exact ⟨hxy.1, hxy.2.1⟩
  | _ => exact ⟨rfl, rfl⟩

theorem Value.eq_self_of_not_isNaN {v : Value} (h : v.isNaN = false) : v.eq v = true := by
  rw [eq_self, h]
  rfl

/-! ## Sets -/

theorem Alike.refl {vs : List Value} {v : Value} (hv : v ∈ vs) : Alike vs v v :=
  ⟨hv, hv, .inl rfl⟩

theorem PartialEquivOn.alike_trans {vs : List Value} (h : PartialEquivOn (· ∈ vs)) {u v w : Value}
    (huv : Alike vs u v) (hvw : Alike vs v w) : Alike vs u w := by
  refine ⟨huv.1, hvw.2.1, ?_⟩
  rcases huv.2.2 with rfl | heq
  · exact hvw.2.2
  · rcases hvw.2.2 with rfl | heq'
    · exact .inr heq
    · exact .inr (h.trans huv.1 hvw.1 hvw.2.1 heq heq')

/-- Each element of one list has a partner of its own in the other, itself or an equal one. -/
def SameElements (vs xs ys : List Value) : Prop :=
  ∃ zs : List Value, zs.Perm ys ∧ List.Forall₂ (Alike vs) xs zs

namespace SameElements

variable {vs xs ys zs items : List Value}

theorem refl (hxs : xs ⊆ vs) : SameElements vs xs xs :=
  ⟨xs, .refl xs, List.forall₂_same.mpr fun _ hx => .refl (hxs hx)⟩

theorem trans (h : PartialEquivOn (· ∈ vs)) (hxy : SameElements vs xs ys)
    (hyz : SameElements vs ys zs) : SameElements vs xs zs := by
  obtain ⟨ys', hperm, hxs⟩ := hxy
  obtain ⟨zs', hperm', hys⟩ := hyz
  obtain ⟨us, hys', husperm⟩ := List.perm_comp_forall₂ hperm hys
  exact ⟨us, husperm.trans hperm', forall₂_comp hxs hys' fun _ _ _ => h.alike_trans⟩

theorem length_eq (h : SameElements vs xs ys) : xs.length = ys.length := by
  obtain ⟨zs, hperm, hzs⟩ := h
  rw [hzs.length_eq, hperm.length_eq]

theorem add (hs : Stock vs) (h : SameElements vs xs ys) {v : Value} (hv : v ∈ vs) :
    SameElements vs (addItem xs v) (addItem ys v) := by
  obtain ⟨zs, hperm, hzs⟩ := h
  have hadd := forall₂_addItem hs.parallel.agree hzs (.refl hv)
  refine ⟨addItem zs v, ?_, hadd⟩
  unfold addItem
  rw [hperm.any_eq]
  split_ifs
  · exact hperm
  · exact hperm.append_right [v]

theorem foldl (hs : Stock vs) (h : SameElements vs xs ys) (hitems : items ⊆ vs) :
    SameElements vs (items.foldl addItem xs) (items.foldl addItem ys) := by
  induction items generalizing xs ys with
  | nil => exact h
  | cons v items ih =>
    obtain ⟨hv, hitems⟩ := List.cons_subset.mp hitems
    exact ih (h.add hs hv) hitems

/-- Two items may be added the other way round. -/
theorem swap (hs : Stock vs) (hxs : xs ⊆ vs) {v w : Value} (hv : v ∈ vs) (hw : w ∈ vs) :
    SameElements vs (addItem (addItem xs v) w) (addItem (addItem xs w) v) := by
  have hadded : ∀ ws : List Value, ws ⊆ [v, w] → xs ++ ws ⊆ vs := fun ws hws =>
    List.append_subset.mpr ⟨hxs, fun x hx => by
      rcases List.mem_pair.mp (hws hx) with rfl | rfl
      · exact hv
      · exact hw⟩
  by_cases hanyv : xs.any (·.eq v) = true <;> by_cases hanyw : xs.any (·.eq w) = true
  · simpa [addItem, hanyv, hanyw] using refl hxs
  · simpa [addItem, hanyv, hanyw] using refl (hadded [w] (by simp))
  · simpa [addItem, hanyv, hanyw] using refl (hadded [v] (by simp))
  · -- both are new, but the second is left out if it equals the first
    have htwo : addItem (addItem xs v) w = if v.eq w then xs ++ [v] else xs ++ [v, w] := by
      simp [addItem, hanyv, hanyw]
    have htwo' : addItem (addItem xs w) v = if v.eq w then xs ++ [w] else xs ++ [w, v] := by
      rw [hs.coherent.partialEquivOn.eq_comm hv hw]
      simp [addItem, hanyv, hanyw]
    rw [htwo, htwo']
    split_ifs with hvw
    · have hsame := List.forall₂_same.mpr fun x hx => Alike.refl (hxs hx)
      exact ⟨xs ++ [w], .refl _, List.rel_append hsame (.cons ⟨hv, hw, .inr hvw⟩ .nil)⟩
    · have hsame := List.forall₂_same.mpr fun x hx => Alike.refl (hadded _ (List.Subset.refl _) hx)
      exact ⟨xs ++ [v, w], (List.Perm.swap w v []).append_left xs, hsame⟩

/-- Any number of items may be added in another order. -/
theorem foldl_perm (hs : Stock vs) {items' : List Value} (hperm : items.Perm items')
    (hitems : items ⊆ vs) (hxs : xs ⊆ vs) :
    SameElements vs (items.foldl addItem xs) (items'.foldl addItem xs) := by
  induction hperm generalizing xs with
  | nil => exact refl hxs
  | cons v _ ih =>
    obtain ⟨hv, hitems⟩ := List.cons_subset.mp hitems
    exact ih hitems (forall_addItem hxs hv)
  | swap v w items =>
    obtain ⟨hw, hrest⟩ := List.cons_subset.mp hitems
    obtain ⟨hv, hitems⟩ := List.cons_subset.mp hrest
    exact (swap hs hxs hw hv).foldl hs hitems
  | trans hperm _ ih ih' =>
    exact trans hs.coherent.partialEquivOn (ih hitems hxs)
      (ih' (fun _ hx => hitems (hperm.mem_iff.mpr hx)) hxs)

theorem sameHash (hs : Stock vs) (h : SameElements vs xs ys) (i j : Nat)
    (digest : List UInt8 → UInt64) : SameHash digest (.set i xs) (.set j ys) := by
  obtain ⟨zs, hperm, hzs⟩ := h
  have hparts : Parts (Alike vs) (.set i xs) (.set j ys) := .set hperm hzs
  exact hparts.sameHash fun _ _ _ _ => sameHash_of_parts fun _ _ => hs.parallel.parts

end SameElements

/-- Whatever is put into a set is in it, or equals something that is. -/
theorem Value.mem_itemsOf_or {items : List Value} {x : Value} (hx : x ∈ items) :
    x ∈ itemsOf items ∨ ∃ y ∈ itemsOf items, y.eq x = true := by
  induction items using List.reverseRecOn with
  | nil => cases hx
  | append_singleton items v ih =>
    rw [itemsOf_concat, addItem]
    rcases List.mem_append.mp hx with hx | hx
    · split_ifs
      · exact ih hx
      · obtain hkept | ⟨y, hy, hyx⟩ := ih hx
        · exact .inl (List.mem_append_left _ hkept)
        · exact .inr ⟨y, List.mem_append_left _ hy, hyx⟩
    · obtain rfl := List.mem_singleton.mp hx
      split_ifs with hany
      · exact .inr (List.any_eq_true.mp hany)
      · exact .inl (List.mem_append_right _ List.mem_cons_self)

/-- Two sets with the same elements are equal unless one of them is a NaN. -/
theorem SameElements.eq_set_iff {vs items ys : List Value}
    (h : SameElements vs (itemsOf items) ys) {i j : Nat} (hij : i ≠ j) :
    (Value.set i (itemsOf items)).eq (.set j ys) = true ↔ ∀ x ∈ items, x.isNaN = false := by
  rw [Value.eq_set_iff, or_iff_right hij]
  constructor
  · rintro ⟨-, hall⟩ x hx
    rcases mem_itemsOf_or hx with hkept | ⟨y, -, hyx⟩
    · obtain ⟨y, -, hxy⟩ := hall x hkept
      exact (isNaN_of_eq hxy).1
    · exact (isNaN_of_eq hyx).2
  · intro hnan
    refine ⟨h.length_eq, fun x hx => ?_⟩
    obtain ⟨zs, hperm, hzs⟩ := h
    obtain ⟨z, hz, -, -, rfl | hxz⟩ := exists_left_of_mem hzs.flip hx
    · exact ⟨x, hperm.subset hz, eq_self_of_not_isNaN (forall_itemsOf hnan x hx)⟩
    · exact ⟨z, hperm.subset hz, hxz⟩

/-! ## Maps -/

/-- The same pairs in another order, in which those with equal keys follow one another as they
did before. -/
structure Reordered (pairs pairs' : List (Value × Value)) : Prop where
  perm : pairs.Perm pairs'
  equalKeys : ∀ e ∈ pairs,
    pairs.filter (fun f => f.1.eq e.1) = pairs'.filter fun f => f.1.eq e.1

theorem Reordered.symm {pairs pairs' : List (Value × Value)} (h : Reordered pairs pairs') :
    Reordered pairs' pairs where
  perm := h.perm.symm
  equalKeys e he := (h.equalKeys e (h.perm.mem_iff.mpr he)).symm

theorem Reordered.forall_mem {pairs pairs' : List (Value × Value)} {P : Value × Value → Prop}
    (h : Reordered pairs pairs') (hpairs : ∀ e ∈ pairs, P e) : ∀ e ∈ pairs', P e :=
  fun e he => hpairs e (h.perm.mem_iff.mpr he)

namespace Value

/-- Pairs whose key is a NaN are never bound again. -/
theorem filter_isNaN_putEntry (es : List (Value × Value)) (k v : Value) :
    (putEntry es k v).filter (·.1.isNaN) =
      es.filter (·.1.isNaN) ++ [(k, v)].filter (·.1.isNaN) := by
  induction es with
  | nil => rfl
  | cons e es ih =>
    unfold putEntry
    split_ifs with hek
    · obtain ⟨he, hk⟩ := isNaN_of_eq hek
      simp [he, hk]
    · rw [List.filter_cons, ih]
      cases he : e.1.isNaN <;> simp [he]

theorem filter_isNaN_entriesOf (pairs : List (Value × Value)) :
    (entriesOf pairs).filter (·.1.isNaN) = pairs.filter (·.1.isNaN) := by
  induction pairs using List.reverseRecOn with
  | nil => rfl
  | append_singleton pairs e ih =>
    rw [entriesOf_concat, filter_isNaN_putEntry, ih, List.filter_append]

theorem lastValue?_eq (pairs : List (Value × Value)) (k : Value) :
    lastValue? pairs k = (pairs.filter fun e => e.1.eq k).getLast?.map Prod.snd := by
  rw [lastValue?, ← List.head?_filter, List.filter_reverse, List.head?_reverse]

end Value

namespace PartialEquivOn

variable {s : Value → Prop} {pairs pairs' es : List (Value × Value)}

/-- What a map holds under a probe has the key of the first and the value of the last of the
pairs whose keys equal the probe. -/
theorem find?_entriesOf (h : PartialEquivOn s) (hpairs : ∀ e ∈ pairs, s e.1) {k : Value}
    (hk : s k) :
    ((entriesOf pairs).find? fun e => e.1.eq k).map Prod.fst =
        (pairs.filter fun e => e.1.eq k).head?.map Prod.fst ∧
      ((entriesOf pairs).find? fun e => e.1.eq k).map Prod.snd =
        (pairs.filter fun e => e.1.eq k).getLast?.map Prod.snd := by
  constructor
  · have hkeys := h.findItem_itemsOf (List.forall_mem_map.mpr hpairs) hk
    rw [findItem, ← keys_entriesOf, List.find?_map, List.find?_map] at hkeys
    rw [List.head?_filter]
    exact hkeys
  · rw [← lastValue?_eq, ← h.findEntry_entriesOf hpairs hk]
    rfl

/-- What is held under a probe depends only on the pairs whose keys equal it. -/
theorem find?_entriesOf_congr (h : PartialEquivOn s) (hpairs : ∀ e ∈ pairs, s e.1)
    (hpairs' : ∀ e ∈ pairs', s e.1) {k : Value} (hk : s k)
    (hfilter : pairs.filter (fun e => e.1.eq k) = pairs'.filter fun e => e.1.eq k) :
    (entriesOf pairs).find? (fun e => e.1.eq k) = (entriesOf pairs').find? fun e => e.1.eq k := by
  obtain ⟨hkey, hvalue⟩ := h.find?_entriesOf hpairs hk
  obtain ⟨hkey', hvalue'⟩ := h.find?_entriesOf hpairs' hk
  rw [hfilter, ← hkey'] at hkey
  rw [hfilter, ← hvalue'] at hvalue
  generalize (entriesOf pairs).find? _ = o at hkey hvalue
  generalize (entriesOf pairs').find? _ = o' at hkey hvalue
  cases o <;> cases o' <;> simp_all [Prod.ext_iff]

/-- The pairs whose keys equal a probe follow one another alike, whichever value asks. -/
theorem filter_of_reordered (h : PartialEquivOn s) (hpairs : ∀ e ∈ pairs, s e.1)
    (hreordered : Reordered pairs pairs') {k : Value} (hk : s k) :
    pairs.filter (fun f => f.1.eq k) = pairs'.filter fun f => f.1.eq k := by
  by_cases hany : ∃ e ∈ pairs, e.1.eq k = true
  · obtain ⟨e, he, hek⟩ := hany
    have hsame : ∀ f : Value × Value, s f.1 → f.1.eq k = f.1.eq e.1 := fun f hf =>
      h.eq_congr hf hf hk (hpairs e he) (.inl rfl) (.inr (h.symm (hpairs e he) hk hek))
    rw [List.filter_congr fun f hf => hsame f (hpairs f hf),
      List.filter_congr fun f hf => hsame f (hreordered.forall_mem hpairs f hf)]
    exact hreordered.equalKeys e he
  · have hnone : ∀ f ∈ pairs, ¬ f.1.eq k = true := fun f hf hfk => hany ⟨f, hf, hfk⟩
    rw [List.filter_eq_nil_iff.mpr hnone,
      List.filter_eq_nil_iff.mpr (hreordered.forall_mem hnone)]

/-- Under unequal keys an entry is found by its own key, unless that is a NaN. -/
theorem find?_self (h : PartialEquivOn s) (hes : ∀ e ∈ es, s e.1)
    (hu : Unequal (es.map Prod.fst)) {e : Value × Value} (he : e ∈ es)
    (hnan : e.1.isNaN = false) : es.find? (fun f => f.1.eq e.1) = some e := by
  refine find?_eq_some_of_unique he (eq_self_of_not_isNaN hnan) fun f hf hfe => ?_
  have hef := h.symm (hes f hf) (hes e he) hfe
  exact eq_of_pairwise (List.pairwise_map.mp hu) hf he (by simp [hfe]) (by simp [hef])

theorem nodup_entries (hu : Unequal (es.map Prod.fst)) :
    (es.filter fun e => !e.1.isNaN).Nodup := by
  refine ((List.pairwise_map.mp hu).filter _).imp_of_mem fun {e f} he _ hef => ?_
  rintro rfl
  have hnan : e.1.isNaN = false := by simpa using (List.mem_filter.mp he).2
  simp [eq_self_of_not_isNaN hnan] at hef

/-- An entry that its own key finds is found in the other map as well. -/
theorem mem_entriesOf_of_reordered (h : PartialEquivOn s) (hpairs : ∀ e ∈ pairs, s e.1)
    (hreordered : Reordered pairs pairs') {e : Value × Value} (he : e ∈ entriesOf pairs)
    (hnan : e.1.isNaN = false) : e ∈ entriesOf pairs' := by
  have hkeys := forall_keys_entriesOf hpairs
  have hfilter := h.filter_of_reordered hpairs hreordered (hkeys e he)
  have hfind := h.find?_entriesOf_congr hpairs (hreordered.forall_mem hpairs) (hkeys e he) hfilter
  rw [h.find?_self hkeys (unequal_keys_entriesOf pairs) he hnan] at hfind
  exact List.mem_of_find?_eq_some hfind.symm

/-- Maps that are built from the same pairs, those with equal keys in the same order, have the
same entries. -/
theorem perm_entriesOf (h : PartialEquivOn s) (hpairs : ∀ e ∈ pairs, s e.1)
    (hreordered : Reordered pairs pairs') : (entriesOf pairs).Perm (entriesOf pairs') := by
  -- entries under a NaN may repeat and cannot be found, so they are counted apart
  have hnan : ((entriesOf pairs).filter (·.1.isNaN)).Perm
      ((entriesOf pairs').filter (·.1.isNaN)) := by
    rw [filter_isNaN_entriesOf, filter_isNaN_entriesOf]
    exact hreordered.perm.filter _
  have hothers : ((entriesOf pairs).filter fun e => !e.1.isNaN).Perm
      ((entriesOf pairs').filter fun e => !e.1.isNaN) := by
    refine (List.perm_ext_iff_of_nodup (nodup_entries (unequal_keys_entriesOf _))
      (nodup_entries (unequal_keys_entriesOf _))).mpr fun e => ?_
    simp only [List.mem_filter, Bool.not_eq_true']
    refine and_congr_left fun hnan => ⟨fun he => ?_, fun he => ?_⟩
    · exact h.mem_entriesOf_of_reordered hpairs hreordered he hnan
    · exact h.mem_entriesOf_of_reordered (hreordered.forall_mem hpairs) hreordered.symm he hnan
  have hsplit := List.filter_append_perm (fun e : Value × Value => e.1.isNaN)
  exact (hsplit (entriesOf pairs)).symm.trans ((hnan.append hothers).trans (hsplit _))

/-- Two maps with the same entries are equal unless a NaN is stored. -/
theorem eq_map_iff_of_perm (h : PartialEquivOn s) (hes : ∀ e ∈ es, s e.1 ∧ s e.2)
    {fs : List (Value × Value)} (hperm : es.Perm fs) (hu : Unequal (fs.map Prod.fst)) {i j : Nat}
    (hij : i ≠ j) :
    (Value.map i es).eq (.map j fs) = true ↔
      ∀ e ∈ es, e.1.isNaN = false ∧ e.2.isNaN = false := by
  have hfs : ∀ f ∈ fs, s f.1 ∧ s f.2 := fun f hf => hes f (hperm.mem_iff.mpr hf)
  rw [h.eq_map_iff hes hfs hu, or_iff_right hij]
  constructor
  · rintro ⟨-, hall⟩ e he
    obtain ⟨f, -, hkey, hvalue⟩ := hall e he
    exact ⟨(isNaN_of_eq hkey).1, (isNaN_of_eq hvalue).1⟩
  · intro hnan
    refine ⟨hperm.length_eq, fun e he => ⟨e, hperm.subset he, ?_, ?_⟩⟩
    · exact eq_self_of_not_isNaN (hnan e he).1
    · exact eq_self_of_not_isNaN (hnan e he).2

end PartialEquivOn

/-! ## Both -/

/-- The same items in another order make a set of the same size and the same hash, and the two
sets are equal unless an item is a NaN. The same pairs in another order, those with equal keys
in the same one, make a map of the same size and the same hash that holds the same value under
every probe, and the two maps are equal unless a NaN is stored as a key or as a value. -/
theorem insertion_order_immaterial {vs : List Value} (h : Stock vs) {i j : Nat} (hij : i ≠ j) :
    (∀ items items' : List Value, items ⊆ vs → items.Perm items' →
      (itemsOf items).length = (itemsOf items').length ∧
      (Value.setOf i items).hash = (Value.setOf j items').hash ∧
      ((Value.setOf i items).eq (Value.setOf j items') = true ↔ ∀ x ∈ items, x.isNaN = false)) ∧
    ∀ pairs pairs' : List (Value × Value), (∀ e ∈ pairs, e.1 ∈ vs ∧ e.2 ∈ vs) →
      Reordered pairs pairs' →
      (entriesOf pairs).length = (entriesOf pairs').length ∧
      (Value.mapOf i pairs).hash = (Value.mapOf j pairs').hash ∧
      (∀ k ∈ vs, findEntry (entriesOf pairs) k = findEntry (entriesOf pairs') k) ∧
      ((Value.mapOf i pairs).eq (Value.mapOf j pairs') = true ↔
        ∀ e ∈ entriesOf pairs, e.1.isNaN = false ∧ e.2.isNaN = false) := by
  have hp := h.coherent.partialEquivOn
  refine ⟨fun items items' hitems hperm => ?_, fun pairs pairs' hpairs hreordered => ?_⟩
  · have hsame : SameElements vs (itemsOf items) (itemsOf items') :=
      .foldl_perm h hperm hitems (List.nil_subset vs)
    exact ⟨hsame.length_eq, (hsame.sameHash h i j SipHash.digest).hash, hsame.eq_set_iff hij⟩
  · have hkeys : ∀ e ∈ pairs, e.1 ∈ vs := fun e he => (hpairs e he).1
    have hkeys' := hreordered.forall_mem hkeys
    have hperm := hp.perm_entriesOf hkeys hreordered
    have hhash : SameHash SipHash.digest (Value.mapOf i pairs) (Value.mapOf j pairs') :=
      sameHash_of_bytes (by simp only [Value.mapOf, encode, sumEntries_perm hperm])
    refine ⟨hperm.length_eq, hhash.hash, fun k hk => ?_, ?_⟩
    · have hfind := hp.find?_entriesOf_congr hkeys hkeys' hk
        (hp.filter_of_reordered hkeys hreordered hk)
      exact congrArg (Option.map Prod.snd) hfind
    · exact hp.eq_map_iff_of_perm (forall_entriesOf hpairs) hperm
        (unequal_keys_entriesOf pairs') hij

/-- Both zeros and a list that holds a NaN: the sets keep different zeros, the maps the same. -/
theorem insertion_order_immaterial_zeros :
    let items := [Stock.zero, Stock.nanList, Stock.negativeZero]
    let items' := [Stock.negativeZero, Stock.zero, Stock.nanList]
    let pairs := [(Stock.zero, Stock.nanList), (Stock.nanList, Stock.zero),
      (Stock.negativeZero, Stock.zero)]
    let pairs' := [(Stock.nanList, Stock.zero), (Stock.zero, Stock.nanList),
      (Stock.negativeZero, Stock.zero)]
    (Value.setOf 4 items).eq (Value.setOf 5 items') = true ∧
      (Value.setOf 4 (Stock.nan :: items)).eq (Value.setOf 5 (Stock.nan :: items')) = false ∧
      (Value.setOf 4 (Stock.nan :: items)).hash = (Value.setOf 5 (Stock.nan :: items')).hash ∧
      (Value.mapOf 4 pairs).eq (Value.mapOf 5 pairs') = true := by
  intro items items' pairs pairs'
  have hitems : Stock.nan :: items ⊆ Stock.zeros := by simp [items, Stock.zeros]
  have hperm : ([Stock.zero, Stock.nanList] ++ [Stock.negativeZero]).Perm items' :=
    List.perm_append_comm
  have hpairs : ∀ e ∈ pairs, e.1 ∈ Stock.zeros ∧ e.2 ∈ Stock.zeros := by
    simp [pairs, Stock.zeros]
  have hreordered : Reordered pairs pairs' := by
    refine ⟨.swap _ _ _, ?_⟩
    simp only [pairs, List.forall_mem_cons]
    exact ⟨rfl, rfl, rfl, List.forall_mem_nil _⟩
  obtain ⟨hsets, hmaps⟩ := insertion_order_immaterial Stock.stock_zeros (show 4 ≠ 5 by decide)
  obtain ⟨-, -, heq⟩ := hsets items items' (List.subset_of_cons_subset hitems) hperm
  obtain ⟨-, hhash, hne⟩ := hsets _ _ hitems (hperm.cons Stock.nan)
  obtain ⟨-, -, -, hmap⟩ := hmaps pairs pairs' hpairs hreordered
  refine ⟨heq.mpr (by decide), Bool.eq_false_iff.mpr (mt hne.mp (by decide)), hhash, ?_⟩
  exact hmap.mpr (by decide)

end ArityDispatch

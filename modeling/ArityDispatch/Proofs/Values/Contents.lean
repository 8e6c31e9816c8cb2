import ArityDispatch.Proofs.Values.Equality

/-!
# Equality by content

Equality takes two collections of one identity as equal and does not look into them. Without a
NaN a look would not have changed the answer, and that at any depth, also where the test decides
which of the stored keys is found first. Two collections of one identity are one value, and a
value without a NaN equals itself element by element; for a map this needs that no other key
equals the one that is looked up.

It is enough that one of the two values has no NaN in it. The comparison is studied for every
test of identities that only takes equal identities for one, and so for no test at all.
-/

namespace ArityDispatch

namespace Value

/-- The value is no NaN, and at no depth is one of its elements. -/
inductive NaNFree : Value → Prop
  | intro {v : Value} : v.isNaN = false → (∀ w ∈ v.elements, NaNFree w) → NaNFree v

theorem NaNFree.eq_self {v : Value} (h : v.NaNFree) : v.eq v = true := by
  cases h with
  | intro hnan _ => rw [Value.eq_self, hnan, Bool.not_false]

theorem NaNFree.elements {v : Value} (h : v.NaNFree) : ∀ w ∈ v.elements, w.NaNFree := by
  cases h with
  | intro _ helements => exact helements

end Value

section
variable {s : Value → Prop} {same : Nat → Nat → Bool} {v w : Value}

/-- Two collections of one identity are one value, and each of its elements equals itself. -/
theorem Coherent.eq_of_identity (hs : Coherent s) (hv : s v) (hw : s w)
    (hnan : v.NaNFree ∨ w.NaNFree) {i : Nat} (hi : v.identity? = some i)
    (hj : w.identity? = some i) : v = w ∧ ∀ x ∈ v.elements, x.eq x = true := by
  obtain rfl := hs.unique hv hw hi hj
  have hfree : v.NaNFree := hnan.elim id id
  exact ⟨rfl, fun x hx => (hfree.elements x hx).eq_self⟩

/-- Fewer tests of identity give the same answer, if they do for the elements. -/
theorem Coherent.eqWith_step (hs : Coherent s) (hsame : ∀ i j, same i j = true → i = j)
    (hv : s v) (hw : s w) (hnan : v.NaNFree ∨ w.NaNFree)
    (helements : ∀ x ∈ v.elements, ∀ y ∈ w.elements, x.eqWith same y = x.eq y) :
    v.eqWith same w = v.eq w := by
  by_cases hkind : Value.SameKind v w
  swap
  · have hfalse : ∀ same, v.eqWith same w = false := fun same =>
      Bool.eq_false_iff.mpr fun h => hkind (Value.sameKind_of_eqWith h)
    rw [Value.eq, hfalse, hfalse]
  have hdistinct := hs.distinct hv
  -- where the contents are equal in any case, a test of identity adds nothing
  have hidentity : ∀ {i j : Nat} {content : Prop}, (i = j → content) →
      (same i j = true ∨ content ↔ i = j ∨ content) := by
    intro i j content h
    rw [or_iff_right_of_imp fun hij => h (hsame i j hij), or_iff_right_of_imp h]
  cases hkind with
  | list i j xs ys =>
    rw [Bool.eq_iff_iff, Value.eqWith_list_iff, Value.eq_list_iff,
      forall₂_congr_of_mem fun x hx y hy => by rw [helements x hx y hy]]
    refine hidentity fun hij => ?_
    subst hij
    obtain ⟨heq, hself⟩ := hs.eq_of_identity hv hw hnan rfl rfl
    obtain ⟨-, rfl⟩ := Value.list.inj heq
    exact List.forall₂_same.mpr hself
  | vector i j xs ys =>
    rw [Bool.eq_iff_iff, Value.eqWith_vector_iff, Value.eq_vector_iff,
      forall₂_congr_of_mem fun x hx y hy => by rw [helements x hx y hy]]
    refine hidentity fun hij => ?_
    subst hij
    obtain ⟨heq, hself⟩ := hs.eq_of_identity hv hw hnan rfl rfl
    obtain ⟨-, rfl⟩ := Value.vector.inj heq
    exact List.forall₂_same.mpr hself
  | set i j xs ys =>
    have hfound : ∀ x ∈ xs, (∃ y ∈ ys, x.eqWith same y = true) ↔ ∃ y ∈ ys, x.eq y = true :=
      fun x hx => exists_congr fun y => and_congr_right fun hy => by rw [helements x hx y hy]
    rw [Bool.eq_iff_iff, Value.eqWith_set_iff, Value.eq_set_iff, forall₂_congr hfound]
    refine hidentity fun hij => ?_
    subst hij
    obtain ⟨heq, hself⟩ := hs.eq_of_identity hv hw hnan rfl rfl
    obtain ⟨-, rfl⟩ := Value.set.inj heq
    exact ⟨rfl, fun x hx => ⟨x, hx, hself x hx⟩⟩
  | map i j es fs =>
    have hfound : ∀ e ∈ es,
        (∃ f, fs.find? (fun f => e.1.eqWith same f.1) = some f ∧ e.2.eqWith same f.2 = true) ↔
          ∃ f, fs.find? (fun f => e.1.eq f.1) = some f ∧ e.2.eq f.2 = true := by
      intro e he
      have hmem := Value.mem_elements_map (i := i) he
      have hfind : fs.find? (fun f => e.1.eqWith same f.1) = fs.find? fun f => e.1.eq f.1 :=
        List.find?_congr fun f hf => helements _ hmem.1 _ (Value.mem_elements_map hf).1
      refine exists_congr fun f => ?_
      rw [hfind]
      refine and_congr_right fun hf => ?_
      have hf := Value.mem_elements_map (i := j) (List.mem_of_find?_eq_some hf)
      rw [helements _ hmem.2 _ hf.2]
    rw [Bool.eq_iff_iff, Value.eqWith_map_iff, Value.eq_map_iff, forall₂_congr hfound]
    refine hidentity fun hij => ?_
    subst hij
    obtain ⟨heq, hself⟩ := hs.eq_of_identity hv hw hnan rfl rfl
    obtain ⟨-, rfl⟩ := Value.map.inj heq
    have hkeys : ∀ e ∈ es, s e.1 := fun e he => hs.closed hv (Value.mem_elements_map he).1
    refine ⟨rfl, fun e he => ?_⟩
    have hmem := Value.mem_elements_map (i := i) he
    exact (hs.partialEquivOn.find?_iff (hkeys e he) hkeys hdistinct).mpr
      ⟨e, he, hself _ hmem.1, hself _ hmem.2⟩
  | _ => rfl

theorem Coherent.eqWith_eq (hs : Coherent s) (hsame : ∀ i j, same i j = true → i = j)
    {v w : Value} (hv : s v) (hw : s w) (hnan : v.NaNFree ∨ w.NaNFree) :
    v.eqWith same w = v.eq w := by
  refine hs.eqWith_step hsame hv hw hnan fun x hx y hy => ?_
  have hnan' : x.NaNFree ∨ y.NaNFree :=
    hnan.imp (fun h => h.elements x hx) fun h => h.elements y hy
  exact hs.eqWith_eq hsame (hs.closed hv hx) (hs.closed hw hy) hnan'
termination_by sizeOf v
decreasing_by exact Value.sizeOf_lt_of_mem_elements hx

end

/-- Of two values that were made one after the other, one without a NaN in it: equality of
the two is equality of their contents. It does not matter either from which of the two the
other is looked into. -/
theorem eq_eq_eqByContent {vs : List Value} (h : Stock vs) {a b : Value} (ha : a ∈ vs)
    (hb : b ∈ vs) (hnan : a.NaNFree ∨ b.NaNFree) :
    a.eq b = a.eqByContent b ∧ a.eq b = b.eqByContent a := by
  have hs := h.coherent
  have hnever : ∀ i j : Nat, (fun _ _ : Nat => false) i j = true → i = j := by simp
  constructor
  · exact (hs.eqWith_eq hnever ha hb hnan).symm
  · rw [hs.partialEquivOn.eq_comm ha hb]
    exact (hs.eqWith_eq hnever hb ha hnan.symm).symm

/-- Two maps that share a list: as a key it is found by its identity, and as a value it equals a
list with the other zero. Neither equals a map that holds a NaN. -/
theorem eq_eq_eqByContent_shared :
    let shared : Value := .list 4 [Stock.zero]
    let left := Value.mapOf 6 [(shared, Stock.zero), (Stock.zero, shared)]
    let right := Value.mapOf 7 [(Stock.negativeZero, .list 5 [Stock.negativeZero]),
      (shared, Stock.negativeZero)]
    left.NaNFree ∧ left.eqByContent right = true ∧ right.eqByContent left = true ∧
      Stock.mixedMap.eqByContent left = false := by
  intro shared left right
  let other : Value := .list 5 [Stock.negativeZero]
  have hlists : Stock (other :: shared :: Stock.zeros) :=
    .list (.list Stock.stock_zeros (by decide) (by simp [Stock.zeros])) (by decide)
      (by simp [Stock.zeros])
  have hleft : Stock (left :: other :: shared :: Stock.zeros) :=
    .map hlists (by decide) (by simp [Stock.zeros])
  have hright : Stock (right :: left :: other :: shared :: Stock.zeros) :=
    .map hleft (by decide) (by simp [Stock.zeros, other])
  have hzero : Stock.zero.NaNFree := .intro rfl (List.forall_mem_nil _)
  have hshared : shared.NaNFree := .intro rfl (List.forall_mem_singleton.mpr hzero)
  have hfree : left.NaNFree :=
    .intro rfl (Value.forall_elements_map.mpr (Value.forall_entriesOf (by simp [hzero, hshared])))
  have hmaps := eq_eq_eqByContent hright (a := left) (b := right) (by simp) (by simp) (.inl hfree)
  have hmixed := eq_eq_eqByContent hright (a := Stock.mixedMap) (b := left) (by simp [Stock.zeros])
    (by simp) (.inr hfree)
  refine ⟨hfree, hmaps.1.symm.trans (by decide), hmaps.2.symm.trans (by decide), ?_⟩
  exact hmixed.1.symm.trans (by decide)

/-- With a NaN inside only the identity tells that a list equals itself. -/
example : Stock.nanList.eq Stock.nanList = true ∧
    Stock.nanList.eqByContent Stock.nanList = false := by decide

end ArityDispatch

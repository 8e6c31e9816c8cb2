import ArityDispatch.Proofs.Values.Equality
import ArityDispatch.Value.Hashing

/-!
# Hashing by parts

A list feeds its elements to the hasher in order; a set and a map feed one sum, over the
hashes of their parts, and the sum does not see their order. So two values are hashed alike
as soon as their parts are, matched in any order where the kind has none. Such a matching
of parts is written `Parts`, for any relation; a relation that hands itself down to the
parts relates only values that are hashed alike.

Nothing is assumed of the digest but that it is a function of the bytes.
-/

namespace ArityDispatch

namespace Value

/-- Two values feed the hasher the same bytes, and so they have one hash. -/
structure SameHash (digest : List UInt8 → UInt64) (v w : Value) : Prop where
  bytes : v.encode digest = w.encode digest
  hash : v.hashWith digest = w.hashWith digest

section
variable {digest : List UInt8 → UInt64}

theorem sameHash_of_bytes {v w : Value} (h : v.encode digest = w.encode digest) :
    SameHash digest v w :=
  ⟨h, congrArg digest h⟩

theorem SameHash.refl (v : Value) : SameHash digest v v := ⟨rfl, rfl⟩

/-! ## Parts that are hashed alike -/

theorem encodeItems_congr {xs ys : List Value} (h : List.Forall₂ (SameHash digest) xs ys) :
    encodeItems digest xs = encodeItems digest ys := by
  induction h with
  | nil => rfl
  | cons hxy _ ih => simp only [encodeItems, hxy.bytes, ih]

theorem sumItems_congr {xs ys : List Value} (h : List.Forall₂ (SameHash digest) xs ys) :
    sumItems digest xs = sumItems digest ys := by
  induction h with
  | nil => rfl
  | cons hxy _ ih => simp only [sumItems, hxy.bytes, ih]

theorem sumEntries_congr {xs ys : List (Value × Value)}
    (h : List.Forall₂ (Both (SameHash digest)) xs ys) :
    sumEntries digest xs = sumEntries digest ys := by
  induction h with
  | nil => rfl
  | cons hxy _ ih => simp only [sumEntries, hxy.1.bytes, hxy.2.bytes, ih]

theorem add_swap (a b c : UInt64) : a + (b + c) = b + (a + c) := by
  rw [← UInt64.add_assoc, UInt64.add_comm a b, UInt64.add_assoc]

/-- The sum over a set does not depend on the order. -/
theorem sumItems_perm {xs ys : List Value} (h : xs.Perm ys) :
    sumItems digest xs = sumItems digest ys := by
  induction h with
  | nil => rfl
  | cons x _ ih => simp only [sumItems, ih]
  | swap x y l => exact add_swap _ _ _
  | trans _ _ ih₁ ih₂ => exact ih₁.trans ih₂

theorem sumEntries_perm {xs ys : List (Value × Value)} (h : xs.Perm ys) :
    sumEntries digest xs = sumEntries digest ys := by
  induction h with
  | nil => rfl
  | cons e _ ih => simp only [sumEntries, ih]
  | swap e f l => exact add_swap _ _ _
  | trans _ _ ih₁ ih₂ => exact ih₁.trans ih₂

/-! ## Values with related parts -/

/-- Two values of one kind with related parts, in any order where the kind has none. -/
inductive Parts (R : Value → Value → Prop) : Value → Value → Prop
  | plain {v w : Value} : v.identity? = none → w.identity? = none → v = w ∨ v.eq w = true →
      Parts R v w
  | list {i j : Nat} {xs ys : List Value} : List.Forall₂ R xs ys → Parts R (.list i xs) (.list j ys)
  | vector {i j : Nat} {xs ys : List Value} : List.Forall₂ R xs ys →
      Parts R (.vector i xs) (.vector j ys)
  | map {i j : Nat} {xs ys zs : List (Value × Value)} : zs.Perm ys →
      List.Forall₂ (Both R) xs zs → Parts R (.map i xs) (.map j ys)
  | set {i j : Nat} {xs ys zs : List Value} : zs.Perm ys → List.Forall₂ R xs zs →
      Parts R (.set i xs) (.set j ys)

theorem sameHash_of_plain {v w : Value} (hv : v.identity? = none) (h : v = w ∨ v.eq w = true) :
    SameHash digest v w := by
  rcases h with rfl | h
  · exact .refl v
  apply sameHash_of_bytes
  cases sameKind_of_eqWith h with
  | nil => rfl
  | bool a b => rw [beq_iff_eq.mp h]
  | integer m k => rw [beq_iff_eq.mp h]
  | real x y => simp only [encode, Binary64.canonicalBits_eq h]
  | string a b => rw [beq_iff_eq.mp h]
  | keyword a b => rw [beq_iff_eq.mp h]
  | var a b =>
    simp only [eq, eqWith, beq_iff_eq] at h
    simp only [encode, h]
  | callable c d =>
    simp only [eq, eqWith, Bool.and_eq_true, beq_iff_eq] at h
    simp only [encode, h.1, h.2]
  | _ => cases hv

theorem Parts.sameHash {R : Value → Value → Prop} {v w : Value} (h : Parts R v w)
    (hR : ∀ x ∈ v.elements, ∀ y ∈ w.elements, R x y → SameHash digest x y) :
    SameHash digest v w := by
  cases h with
  | plain hv _ h => exact sameHash_of_plain hv h
  | list h =>
    apply sameHash_of_bytes
    simp only [encode, encodeItems_congr (forall₂_imp_of_mem h hR)]
  | vector h =>
    apply sameHash_of_bytes
    simp only [encode, encodeItems_congr (forall₂_imp_of_mem h hR)]
  | @map i j xs ys zs hperm h =>
    have hzs : List.Forall₂ (Both (SameHash digest)) xs zs := by
      refine forall₂_imp_of_mem h fun e he f hf hef => ?_
      have hk := mem_elements_map (i := i) he
      have hk' := mem_elements_map (i := j) (hperm.subset hf)
      exact ⟨hR _ hk.1 _ hk'.1 hef.1, hR _ hk.2 _ hk'.2 hef.2⟩
    apply sameHash_of_bytes
    simp only [encode, sumEntries_congr hzs, sumEntries_perm hperm]
  | set hperm h =>
    have hzs := forall₂_imp_of_mem h fun x hx z hz => hR x hx z (hperm.subset hz)
    apply sameHash_of_bytes
    simp only [encode, sumItems_congr hzs, sumItems_perm hperm]

/-- Values are hashed alike under every relation that is handed down to the parts. -/
theorem sameHash_of_parts {R : Value → Value → Prop} (hR : ∀ v w, R v w → Parts R v w)
    {v w : Value} (h : R v w) : SameHash digest v w := by
  induction hn : sizeOf v using Nat.strongRecOn generalizing v w with
  | ind n ih =>
    subst hn
    exact (hR v w h).sameHash fun x hx y _ hxy => ih _ (sizeOf_lt_of_mem_elements hx) hxy rfl

end

end Value

end ArityDispatch

import ArityDispatch.Proofs.Values.Hashing

/-!
# Collections around equal values

Two programs go through the same steps, but where one takes a value the other may take an
equal one: what they make are `Twins`. Twins need not be equal, since a list that holds a
NaN equals no other list, yet they are hashed alike.

A set drops what it finds equal to an earlier item, so the two programs must find the same
things equal. That is the invariant, `Parallel`: what stands in one place of both is
compared alike with what stands in any other, and its parts stand in one place of both.
-/

namespace ArityDispatch

/-! ## Relations between two stocks -/

/-- A relation that handles two stocks as one: related values are compared alike, and their
parts are related again. -/
structure Parallel (vs ws : List Value) (R : Value → Value → Prop) : Prop where
  left : Coherent (· ∈ vs)
  right : Coherent (· ∈ ws)
  mem : ∀ {v w}, R v w → v ∈ vs ∧ w ∈ ws
  agree : ∀ {v w v' w'}, R v w → R v' w' → v.eq v' = w.eq w'
  parts : ∀ {v w}, R v w → Value.Parts R v w

namespace Value

section
variable {R : Value → Value → Prop}

theorem Parts.refl (v : Value) (h : ∀ x ∈ v.elements, R x x) : Parts R v v := by
  cases v with
  | list i xs => exact .list (List.forall₂_same.mpr h)
  | vector i xs => exact .vector (List.forall₂_same.mpr h)
  | set i xs => exact .set (.refl xs) (List.forall₂_same.mpr h)
  | map i es => exact .map (.refl es) (List.forall₂_same.mpr (forall_elements_map.mp h))
  | _ => exact .plain rfl rfl (.inl rfl)

theorem Parts.mono {S : Value → Value → Prop} {v w : Value} (h : Parts R v w)
    (hRS : ∀ x y, R x y → S x y) : Parts S v w := by
  cases h with
  | plain hv hw h => exact .plain hv hw h
  | list h => exact .list (h.imp hRS)
  | vector h => exact .vector (h.imp hRS)
  | map hperm h => exact .map hperm (h.imp fun e f hef => ⟨hRS _ _ hef.1, hRS _ _ hef.2⟩)
  | set hperm h => exact .set hperm (h.imp hRS)

/-- The parts of both values are among the related ones. -/
theorem Parts.elements {P Q : Value → Prop} {v w : Value} (h : Parts R v w)
    (hR : ∀ x y, R x y → P x ∧ Q y) : (∀ x ∈ v.elements, P x) ∧ ∀ y ∈ w.elements, Q y := by
  cases h with
  | plain hv hw _ => simp [elements_of_identity_none hv, elements_of_identity_none hw]
  | list h => exact forall_of_forall₂ h hR
  | vector h => exact forall_of_forall₂ h hR
  | map hperm h =>
    obtain ⟨hes, hfs⟩ := forall_of_forall₂ h fun e f hef =>
      (⟨⟨(hR _ _ hef.1).1, (hR _ _ hef.2).1⟩, (hR _ _ hef.1).2, (hR _ _ hef.2).2⟩ :
        (P e.1 ∧ P e.2) ∧ Q f.1 ∧ Q f.2)
    rw [forall_elements_map, forall_elements_map]
    exact ⟨hes, fun f hf => hfs f (hperm.mem_iff.mpr hf)⟩
  | set hperm h =>
    obtain ⟨hxs, hzs⟩ := forall_of_forall₂ h hR
    exact ⟨hxs, fun y hy => hzs y (hperm.mem_iff.mpr hy)⟩

theorem Parts.plain_iff {v w : Value} (h : Parts R v w) :
    v.identity? = none ↔ w.identity? = none := by
  cases h with
  | plain hv hw _ => simp only [hv, hw]
  | _ => simp [identity?]

/-- Only collections equal collections. -/
theorem eq_eq_false_of_plain {v w : Value}
    (h : ¬ (v.identity? = none ↔ w.identity? = none)) : v.eq w = false := by
  rw [Bool.eq_false_iff]
  intro heq
  refine h ?_
  cases sameKind_of_eqWith heq <;> simp [identity?]

/-- Every collection equals itself. -/
theorem eq_self_of_identity {v : Value} (hv : v.identity? ≠ none) : v.eq v = true := by
  rw [eq_self, Bool.not_eq_true']
  cases v with
  | real x => exact absurd rfl hv
  | _ => rfl

/-! ## Maps and sets of related items -/

section
variable (hagree : ∀ {v w v' w'}, R v w → R v' w' → v.eq v' = w.eq w')
include hagree

theorem forall₂_addItem {xs ys : List Value} {v w : Value} (h : List.Forall₂ R xs ys)
    (hvw : R v w) : List.Forall₂ R (addItem xs v) (addItem ys w) := by
  have hany : xs.any (·.eq v) = true ↔ ys.any (·.eq w) = true := by
    simp only [List.any_eq_true]
    exact exists_iff_of_forall₂ h fun x y hxy => by rw [hagree hxy hvw]
  unfold addItem
  by_cases hv : xs.any (·.eq v) = true
  · rwa [if_pos hv, if_pos (hany.mp hv)]
  · rw [if_neg hv, if_neg (mt hany.mpr hv)]
    exact List.rel_append h (.cons hvw .nil)

theorem forall₂_itemsOf {xs ys : List Value} (h : List.Forall₂ R xs ys) :
    List.Forall₂ R (itemsOf xs) (itemsOf ys) := by
  refine List.rel_foldl (R := R) ?_ .nil h
  intro acc acc' hacc v w hvw
  exact forall₂_addItem hagree hacc hvw

theorem forall₂_putEntry {es fs : List (Value × Value)} {k v l w : Value}
    (h : List.Forall₂ (Both R) es fs) (hkl : R k l) (hvw : R v w) :
    List.Forall₂ (Both R) (putEntry es k v) (putEntry fs l w) := by
  induction h with
  | nil => exact .cons ⟨hkl, hvw⟩ .nil
  | cons hef h ih =>
    unfold putEntry
    rw [hagree hef.1 hkl]
    split_ifs
    · exact .cons ⟨hef.1, hvw⟩ h
    · exact .cons hef ih

theorem forall₂_entriesOf {es fs : List (Value × Value)} (h : List.Forall₂ (Both R) es fs) :
    List.Forall₂ (Both R) (entriesOf es) (entriesOf fs) := by
  refine List.rel_foldl (R := Both R) ?_ .nil h
  intro acc acc' hacc e f hef
  exact forall₂_putEntry hagree hacc hef.1 hef.2

end

end

end Value

namespace Parallel

variable {vs ws : List Value} {R : Value → Value → Prop}

theorem eq_iff (h : Parallel vs ws R) (x y x' y' : Value) (hxy : R x y) (hxy' : R x' y') :
    x.eq x' = true ↔ y.eq y' = true := by
  rw [h.agree hxy hxy']

theorem eq_of_plain {v w v' w' : Value} (hp : Value.Parts R v w) (hp' : Value.Parts R v' w')
    (hkind : ¬ (v.identity? = none ↔ v'.identity? = none)) : v.eq v' = w.eq w' := by
  have hkind' : ¬ (w.identity? = none ↔ w'.identity? = none) := by
    rwa [← hp.plain_iff, ← hp'.plain_iff]
  rw [Value.eq_eq_false_of_plain hkind, Value.eq_eq_false_of_plain hkind']

/-- Collections with related parts are compared by content alike. -/
theorem eq_of_parts (h : Parallel vs ws R) {v w v' w' : Value} (hp : Value.Parts R v w)
    (hp' : Value.Parts R v' w') (hne : v.identity? ≠ v'.identity?)
    (hne' : w.identity? ≠ w'.identity?) (hdv : v'.Distinct) (hdw : w'.Distinct) :
    v.eq v' = w.eq w' := by
  by_cases hkind : v.identity? = none ↔ v'.identity? = none
  swap
  · exact eq_of_plain hp hp' hkind
  have hmem := hp.elements fun _ _ => h.mem
  have hmem' := hp'.elements fun _ _ => h.mem
  cases hp with
  | plain hv => exact absurd (hv.trans (hkind.mp hv).symm) hne
  | list hxy =>
    cases hp' with
    | plain hv' => cases hkind.mpr hv'
    | list hxy' =>
      rw [Bool.eq_iff_iff, Value.eq_list_iff, Value.eq_list_iff,
        or_iff_right fun hi => hne (congrArg some hi),
        or_iff_right fun hj => hne' (congrArg some hj)]
      exact forall₂_iff_of_forall₂ h.eq_iff hxy hxy'
    | _ => rfl
  | vector hxy =>
    cases hp' with
    | plain hv' => cases hkind.mpr hv'
    | vector hxy' =>
      rw [Bool.eq_iff_iff, Value.eq_vector_iff, Value.eq_vector_iff,
        or_iff_right fun hi => hne (congrArg some hi),
        or_iff_right fun hj => hne' (congrArg some hj)]
      exact forall₂_iff_of_forall₂ h.eq_iff hxy hxy'
    | _ => rfl
  | set hperm hxy =>
    cases hp' with
    | plain hv' => cases hkind.mpr hv'
    | set hperm' hxy' =>
      rw [Bool.eq_iff_iff, Value.eq_set_iff, Value.eq_set_iff,
        or_iff_right fun hi => hne (congrArg some hi),
        or_iff_right fun hj => hne' (congrArg some hj)]
      exact partners_iff_of_forall₂ h.eq_iff hxy hxy' hperm hperm'
    | _ => rfl
  | map hperm hxy =>
    cases hp' with
    | plain hv' => cases hkind.mpr hv'
    | map hperm' hxy' =>
      have hs := h.left.partialEquivOn
      have hs' := h.right.partialEquivOn
      rw [Value.forall_elements_map, Value.forall_elements_map] at hmem hmem'
      rw [Bool.eq_iff_iff, hs.eq_map_iff hmem.1 hmem'.1 hdv, hs'.eq_map_iff hmem.2 hmem'.2 hdw,
        or_iff_right fun hi => hne (congrArg some hi),
        or_iff_right fun hj => hne' (congrArg some hj)]
      refine partners_iff_of_forall₂ (fun e f e' f' hef hef' => ?_) hxy hxy' hperm hperm'
      exact and_congr (h.eq_iff _ _ _ _ hef.1 hef'.1) (h.eq_iff _ _ _ _ hef.2 hef'.2)
    | _ => rfl

/-- One more collection on either side, with related parts. -/
theorem cons (h : Parallel vs ws R) {v w : Value} {i j : Nat} (hp : Value.Parts R v w)
    (hv : v.identity? = some i) (hw : w.identity? = some j) (hi : Fresh i vs) (hj : Fresh j ws)
    (hdv : v.Distinct) (hdw : w.Distinct) {R' : Value → Value → Prop}
    (hR' : ∀ x y, R' x y ↔ x = v ∧ y = w ∨ R x y) : Parallel (v :: vs) (w :: ws) R' := by
  have hmem := hp.elements fun _ _ => h.mem
  have hleft : Coherent (· ∈ v :: vs) :=
    h.left.cons (fun k hk => Option.some.inj (hv.symm.trans hk) ▸ hi) hmem.1 hdv
  have hright : Coherent (· ∈ w :: ws) :=
    h.right.cons (fun k hk => Option.some.inj (hw.symm.trans hk) ▸ hj) hmem.2 hdw
  have hmem' : ∀ {x y}, R' x y → x ∈ v :: vs ∧ y ∈ w :: ws := by
    intro x y hxy
    rcases (hR' x y).mp hxy with ⟨rfl, rfl⟩ | hxy
    · exact ⟨List.mem_cons_self, List.mem_cons_self⟩
    · exact ⟨List.mem_cons_of_mem _ (h.mem hxy).1, List.mem_cons_of_mem _ (h.mem hxy).2⟩
  have hsub : ∀ x y, R x y → R' x y := fun x y hxy => (hR' x y).mpr (.inr hxy)
  -- the new collections are compared with old values by content
  have hold : ∀ {x y}, R x y → v.eq x = w.eq y := by
    intro x y hxy
    have hne : v.identity? ≠ x.identity? := fun he => hi x (h.mem hxy).1 (he.symm.trans hv)
    have hne' : w.identity? ≠ y.identity? := fun he => hj y (h.mem hxy).2 (he.symm.trans hw)
    exact h.eq_of_parts hp (h.parts hxy) hne hne' (h.left.distinct (h.mem hxy).1)
      (h.right.distinct (h.mem hxy).2)
  refine ⟨hleft, hright, hmem', ?_, ?_⟩
  · intro x y x' y' hxy hxy'
    have hm := hmem' hxy
    have hm' := hmem' hxy'
    rcases (hR' x y).mp hxy with ⟨rfl, rfl⟩ | hxy₀
    · rcases (hR' x' y').mp hxy' with ⟨rfl, rfl⟩ | hxy₁
      · rw [Value.eq_self_of_identity (by simp [hv]), Value.eq_self_of_identity (by simp [hw])]
      · exact hold hxy₁
    · rcases (hR' x' y').mp hxy' with ⟨rfl, rfl⟩ | hxy₁
      · rw [hleft.partialEquivOn.eq_comm hm.1 hm'.1, hright.partialEquivOn.eq_comm hm.2 hm'.2]
        exact hold hxy₀
      · exact h.agree hxy₀ hxy₁
  · intro x y hxy
    rcases (hR' x y).mp hxy with ⟨rfl, rfl⟩ | hxy
    · exact hp.mono hsub
    · exact (h.parts hxy).mono hsub

end Parallel

/-! ## Twins -/

/-- One value, or two equal ones, of those that were made before. -/
def Alike (vs : List Value) (v w : Value) : Prop := v ∈ vs ∧ w ∈ vs ∧ (v = w ∨ v.eq w = true)

/-- Two values that stand in one place of the two programs, after both have made `ps`. -/
def Twin (vs : List Value) (ps : List (Value × Value)) (v w : Value) : Prop :=
  Alike vs v w ∨ (v, w) ∈ ps

/-- The collections that two programs make, each from what stands in one place of both. -/
inductive Twins (vs : List Value) : List (Value × Value) → Prop
  | start : Twins vs []
  | list {ps : List (Value × Value)} {xs ys : List Value} {i j : Nat} : Twins vs ps →
      Fresh i (ps.map Prod.fst ++ vs) → Fresh j (ps.map Prod.snd ++ vs) →
      List.Forall₂ (Twin vs ps) xs ys → Twins vs ((.list i xs, .list j ys) :: ps)
  | vector {ps : List (Value × Value)} {xs ys : List Value} {i j : Nat} : Twins vs ps →
      Fresh i (ps.map Prod.fst ++ vs) → Fresh j (ps.map Prod.snd ++ vs) →
      List.Forall₂ (Twin vs ps) xs ys → Twins vs ((.vector i xs, .vector j ys) :: ps)
  | map {ps es fs : List (Value × Value)} {i j : Nat} : Twins vs ps →
      Fresh i (ps.map Prod.fst ++ vs) → Fresh j (ps.map Prod.snd ++ vs) →
      List.Forall₂ (Value.Both (Twin vs ps)) es fs →
      Twins vs ((Value.mapOf i es, Value.mapOf j fs) :: ps)
  | set {ps : List (Value × Value)} {xs ys : List Value} {i j : Nat} : Twins vs ps →
      Fresh i (ps.map Prod.fst ++ vs) → Fresh j (ps.map Prod.snd ++ vs) →
      List.Forall₂ (Twin vs ps) xs ys → Twins vs ((Value.setOf i xs, Value.setOf j ys) :: ps)

section
variable {vs : List Value} {ps : List (Value × Value)}

theorem Coherent.alike_parts (hs : Coherent (· ∈ vs)) {v w : Value} (h : Alike vs v w) :
    Value.Parts (Alike vs) v w := by
  have hrefl : ∀ u ∈ vs, Value.Parts (Alike vs) u u := fun u hu =>
    .refl u fun x hx => ⟨hs.closed hu hx, hs.closed hu hx, .inl rfl⟩
  obtain ⟨hv, hw, rfl | heq⟩ := h
  · exact hrefl v hv
  have hp := hs.partialEquivOn
  have hvs : ∀ x ∈ v.elements, x ∈ vs := fun x hx => hs.closed hv hx
  have hws : ∀ y ∈ w.elements, y ∈ vs := fun y hy => hs.closed hw hy
  have hpart : ∀ x ∈ v.elements, ∀ y ∈ w.elements, x.eq y = true → Alike vs x y :=
    fun x hx y hy hxy => ⟨hvs x hx, hws y hy, .inr hxy⟩
  have hdv := hs.distinct hv
  have hdw := hs.distinct hw
  cases Value.sameKind_of_eqWith heq with
  | list i j xs ys =>
    rcases Value.eq_list_iff.mp heq with rfl | hxy
    · exact hs.unique hv hw rfl rfl ▸ hrefl _ hv
    · exact .list (forall₂_imp_of_mem hxy hpart)
  | vector i j xs ys =>
    rcases Value.eq_vector_iff.mp heq with rfl | hxy
    · exact hs.unique hv hw rfl rfl ▸ hrefl _ hv
    · exact .vector (forall₂_imp_of_mem hxy hpart)
  | set i j xs ys =>
    rcases Value.eq_set_iff.mp heq with rfl | ⟨hlen, hall⟩
    · exact hs.unique hv hw rfl rfl ▸ hrefl _ hv
    · obtain ⟨zs, hperm, hzs⟩ := hp.matched_set hvs hws hdv hlen hall
      exact .set hperm (forall₂_imp_of_mem hzs fun x hx z hz => hpart x hx z (hperm.subset hz))
  | map i j xs ys =>
    rw [Value.forall_elements_map] at hvs hws
    rcases (hp.eq_map_iff hvs hws hdw).mp heq with rfl | ⟨hlen, hall⟩
    · exact hs.unique hv hw rfl rfl ▸ hrefl _ hv
    · obtain ⟨zs, hperm, hzs⟩ := hp.matched_map hvs hws hdv hlen hall
      refine .map hperm (forall₂_imp_of_mem hzs fun e he f hf hef => ?_)
      have hf' := hperm.subset hf
      exact ⟨⟨(hvs e he).1, (hws f hf').1, .inr hef.1⟩, (hvs e he).2, (hws f hf').2, .inr hef.2⟩
  | _ => exact .plain rfl rfl (.inr heq)

/-- Equal values of one stock are handled as one. -/
theorem Stock.parallel (h : Stock vs) : Parallel vs vs (Alike vs) where
  left := h.coherent
  right := h.coherent
  mem h := ⟨h.1, h.2.1⟩
  agree hvw hvw' := h.coherent.partialEquivOn.eq_congr hvw.1 hvw.2.1 hvw'.1 hvw'.2.1 hvw.2.2
    hvw'.2.2
  parts := h.coherent.alike_parts

theorem Twins.parallel (h : Stock vs) (ht : Twins vs ps) :
    Parallel (ps.map Prod.fst ++ vs) (ps.map Prod.snd ++ vs) (Twin vs ps) := by
  have hcons : ∀ (ps : List (Value × Value)) (v w x y : Value),
      Twin vs ((v, w) :: ps) x y ↔ x = v ∧ y = w ∨ Twin vs ps x y := by
    intro ps v w x y
    simp only [Twin, List.mem_cons, Prod.mk.injEq]
    exact or_left_comm
  induction ht with
  | start =>
    have htwin : Twin vs [] = Alike vs := by
      funext v w
      simp [Twin]
    rw [htwin]
    exact h.parallel
  | list _ hi hj hxy ih => exact ih.cons (.list hxy) rfl rfl hi hj trivial trivial (hcons _ _ _)
  | vector _ hi hj hxy ih => exact ih.cons (.vector hxy) rfl rfl hi hj trivial trivial (hcons _ _ _)
  | map _ hi hj hef ih =>
    have hparts := Value.forall₂_entriesOf ih.agree hef
    refine ih.cons (.map (.refl _) hparts) rfl rfl hi hj ?_ ?_ (hcons _ _ _)
    · exact Value.distinct_mapOf _ _
    · exact Value.distinct_mapOf _ _
  | set _ hi hj hxy ih =>
    have hparts := Value.forall₂_itemsOf ih.agree hxy
    exact ih.cons (.set (.refl _) hparts) rfl rfl hi hj (Value.unequal_itemsOf _)
      (Value.unequal_itemsOf _) (hcons _ _ _)

end

/-- Equal values that were made one after the other feed a hasher the same bytes and have
one hash, and so do all collections that two programs make around them. -/
theorem hash_consistent {vs : List Value} (h : Stock vs) (digest : List UInt8 → UInt64) :
    (∀ a ∈ vs, ∀ b ∈ vs, a.eq b = true →
      a.encode digest = b.encode digest ∧ a.hashWith digest = b.hashWith digest ∧
        a.hash = b.hash) ∧
    ∀ ps, Twins vs ps → ∀ p ∈ ps,
      p.1.encode digest = p.2.encode digest ∧ p.1.hashWith digest = p.2.hashWith digest ∧
        p.1.hash = p.2.hash := by
  constructor
  · intro a ha b hb hab
    have hsame : ∀ digest, Value.SameHash digest a b := fun digest =>
      Value.sameHash_of_parts (fun v w => h.parallel.parts) ⟨ha, hb, .inr hab⟩
    exact ⟨(hsame digest).bytes, (hsame digest).hash, (hsame SipHash.digest).hash⟩
  · intro ps ht p hp
    have hsame : ∀ digest, Value.SameHash digest p.1 p.2 := fun digest =>
      Value.sameHash_of_parts (fun v w => (ht.parallel h).parts) (.inr hp)
    exact ⟨(hsame digest).bytes, (hsame digest).hash, (hsame SipHash.digest).hash⟩

/-- Equal maps in unequal lists, in sets around the lists. -/
theorem hash_consistent_zeros :
    Stock.zeroMap.hash = Stock.negativeMap.hash ∧
    (Value.list 4 [Stock.zeroMap, Stock.nan]).eq (.list 5 [Stock.negativeMap, Stock.nan]) = false ∧
    (Value.setOf 6 [.list 4 [Stock.zeroMap, Stock.nan]]).hash =
      (Value.setOf 7 [.list 5 [Stock.negativeMap, Stock.nan]]).hash := by
  have hzero : Stock.zeroMap ∈ Stock.zeros := by simp [Stock.zeros]
  have hnegative : Stock.negativeMap ∈ Stock.zeros := by simp [Stock.zeros]
  have hnan : Stock.nan ∈ Stock.zeros := by simp [Stock.zeros]
  have heq : Stock.zeroMap.eq Stock.negativeMap = true := by decide
  have hlists : Twins Stock.zeros [(.list 4 [Stock.zeroMap, Stock.nan],
      .list 5 [Stock.negativeMap, Stock.nan])] := by
    refine .list .start (by decide) (by decide) ?_
    exact .cons (.inl ⟨hzero, hnegative, .inr heq⟩) (.cons (.inl ⟨hnan, hnan, .inl rfl⟩) .nil)
  have hsets : Twins Stock.zeros [(Value.setOf 6 [.list 4 [Stock.zeroMap, Stock.nan]],
      Value.setOf 7 [.list 5 [Stock.negativeMap, Stock.nan]]), (.list 4 [Stock.zeroMap, Stock.nan],
      .list 5 [Stock.negativeMap, Stock.nan])] :=
    .set hlists (by decide) (by decide) (.cons (.inr List.mem_cons_self) .nil)
  have hall := hash_consistent Stock.stock_zeros SipHash.digest
  exact ⟨(hall.1 _ hzero _ hnegative heq).2.2, by decide,
    (hall.2 _ hsets _ List.mem_cons_self).2.2⟩

end ArityDispatch

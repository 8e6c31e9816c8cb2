import ArityDispatch.Proofs.Values.Matching
import ArityDispatch.Proofs.Values.Stock
import Mathlib.Data.List.Find

/-!
# Equality is a partial equivalence

Equality of maps and sets looks one way only: the sizes agree, and each entry or element of
the first has an equal one in the second. That this is symmetric takes counting. The
elements of a set are pairwise unequal, so different elements of the first have different
partners in the second, and as many elements have as many partners: none is left over.

The argument needs equality of the elements to be symmetric and transitive already, so both
are proved together, for all values of a coherent stock up to a size. Within a stock two
collections of one identity are the same value, and so the comparison of identities decides
nothing that a look at the elements could contradict, except for a NaN inside.

That comparison and lookup look in opposite directions makes no difference in a stock.
-/

namespace ArityDispatch

namespace Value

/-! ## What the comparison of collections says -/

section
variable (same : Nat → Nat → Bool)

theorem eqItems_iff (xs ys : List Value) :
    eqItems same xs ys = true ↔ List.Forall₂ (fun x y => x.eqWith same y = true) xs ys := by
  induction xs generalizing ys with
  | nil => cases ys <;> simp [eqItems]
  | cons x xs ih => cases ys <;> simp [eqItems, ih]

theorem allIn_iff (xs ys : List Value) :
    allIn same xs ys = true ↔ ∀ x ∈ xs, ∃ y ∈ ys, x.eqWith same y = true := by
  induction xs with
  | nil => simp [allIn]
  | cons x xs ih => simp [allIn, ih]

theorem allBound_iff (xs ys : List (Value × Value)) :
    allBound same xs ys = true ↔ ∀ x ∈ xs, ∃ e,
      ys.find? (fun e => x.1.eqWith same e.1) = some e ∧ x.2.eqWith same e.2 = true := by
  induction xs with
  | nil => simp [allBound]
  | cons x xs ih =>
    obtain ⟨k, v⟩ := x
    rw [allBound, Bool.and_eq_true, ih, List.forall_mem_cons]
    cases ys.find? fun e => k.eqWith same e.1 <;> simp

end

/-- Two values of one kind. -/
inductive SameKind : Value → Value → Prop
  | nil : SameKind .nil .nil
  | bool (a b : Bool) : SameKind (.bool a) (.bool b)
  | integer (m n : Int64) : SameKind (.integer m) (.integer n)
  | real (x y : Binary64) : SameKind (.real x) (.real y)
  | string (s t : String) : SameKind (.string s) (.string t)
  | keyword (s t : String) : SameKind (.keyword s) (.keyword t)
  | list (i j : Nat) (xs ys : List Value) : SameKind (.list i xs) (.list j ys)
  | vector (i j : Nat) (xs ys : List Value) : SameKind (.vector i xs) (.vector j ys)
  | map (i j : Nat) (xs ys : List (Value × Value)) : SameKind (.map i xs) (.map j ys)
  | set (i j : Nat) (xs ys : List Value) : SameKind (.set i xs) (.set j ys)
  | var (a b : Var) : SameKind (.var a) (.var b)
  | callable (c d : Callable) : SameKind (.callable c) (.callable d)

theorem sameKind_of_eqWith {same : Nat → Nat → Bool} {v w : Value}
    (h : v.eqWith same w = true) : SameKind v w := by
  cases v <;> cases w <;> first | constructor | (cases h)

section
variable {same : Nat → Nat → Bool} {i j : Nat} {xs ys : List Value} {es fs : List (Value × Value)}

theorem eqWith_list_iff : (Value.list i xs).eqWith same (.list j ys) = true ↔
    same i j = true ∨ List.Forall₂ (fun x y => x.eqWith same y = true) xs ys := by
  simp only [eqWith, Bool.or_eq_true, eqItems_iff]

theorem eqWith_vector_iff : (Value.vector i xs).eqWith same (.vector j ys) = true ↔
    same i j = true ∨ List.Forall₂ (fun x y => x.eqWith same y = true) xs ys := by
  simp only [eqWith, Bool.or_eq_true, eqItems_iff]

theorem eqWith_set_iff : (Value.set i xs).eqWith same (.set j ys) = true ↔
    same i j = true ∨
      (xs.length = ys.length ∧ ∀ x ∈ xs, ∃ y ∈ ys, x.eqWith same y = true) := by
  simp only [eqWith, Bool.or_eq_true, Bool.and_eq_true, beq_iff_eq, allIn_iff]

theorem eqWith_map_iff : (Value.map i es).eqWith same (.map j fs) = true ↔
    same i j = true ∨ (es.length = fs.length ∧ ∀ e ∈ es, ∃ f,
      fs.find? (fun f => e.1.eqWith same f.1) = some f ∧ e.2.eqWith same f.2 = true) := by
  simp only [eqWith, Bool.or_eq_true, Bool.and_eq_true, beq_iff_eq, allBound_iff]

theorem eq_list_iff : (Value.list i xs).eq (.list j ys) = true ↔
    i = j ∨ List.Forall₂ (fun x y => x.eq y = true) xs ys := by
  simp only [eq, eqWith_list_iff, beq_iff_eq]

theorem eq_vector_iff : (Value.vector i xs).eq (.vector j ys) = true ↔
    i = j ∨ List.Forall₂ (fun x y => x.eq y = true) xs ys := by
  simp only [eq, eqWith_vector_iff, beq_iff_eq]

theorem eq_set_iff : (Value.set i xs).eq (.set j ys) = true ↔
    i = j ∨ (xs.length = ys.length ∧ ∀ x ∈ xs, ∃ y ∈ ys, x.eq y = true) := by
  simp only [eq, eqWith_set_iff, beq_iff_eq]

theorem eq_map_iff : (Value.map i es).eq (.map j fs) = true ↔
    i = j ∨ (es.length = fs.length ∧ ∀ e ∈ es, ∃ f,
      fs.find? (fun f => e.1.eq f.1) = some f ∧ e.2.eq f.2 = true) := by
  simp only [eq, eqWith_map_iff, beq_iff_eq]

end

/-- Two entries are related when their keys are, and their values. -/
def Both (R : Value → Value → Prop) (e f : Value × Value) : Prop := R e.1 f.1 ∧ R e.2 f.2

theorem sizeOf_lt_of_mem_elements {v w : Value} (h : w ∈ v.elements) : sizeOf w < sizeOf v := by
  cases v with
  | list i xs =>
    have hw := List.sizeOf_lt_of_mem (show w ∈ xs from h)
    simp only [list.sizeOf_spec]
    omega
  | vector i xs =>
    have hw := List.sizeOf_lt_of_mem (show w ∈ xs from h)
    simp only [vector.sizeOf_spec]
    omega
  | set i xs =>
    have hw := List.sizeOf_lt_of_mem (show w ∈ xs from h)
    simp only [set.sizeOf_spec]
    omega
  | map i es =>
    obtain ⟨⟨k, v⟩, he, hw⟩ := List.mem_flatMap.mp (show w ∈ es.flatMap _ from h)
    have hes := List.sizeOf_lt_of_mem he
    simp only [Prod.mk.sizeOf_spec, map.sizeOf_spec] at hes ⊢
    rcases List.mem_cons.mp hw with rfl | hw
    · omega
    · obtain rfl := List.mem_singleton.mp hw
      omega
  | _ => cases h

end Value

/-! ## Symmetry and transitivity -/

/-- Equality is symmetric and transitive among the values with a property. -/
structure PartialEquivOn (s : Value → Prop) : Prop where
  symm : ∀ {v w}, s v → s w → v.eq w = true → w.eq v = true
  trans : ∀ {u v w}, s u → s v → s w → u.eq v = true → v.eq w = true → u.eq w = true

namespace PartialEquivOn

variable {s : Value → Prop}

theorem eq_comm (h : PartialEquivOn s) {v w : Value} (hv : s v) (hw : s w) : v.eq w = w.eq v :=
  Bool.eq_iff_iff.mpr ⟨h.symm hv hw, h.symm hw hv⟩

/-- Equal values are compared alike. -/
theorem eq_congr (h : PartialEquivOn s) {v w v' w' : Value} (hv : s v) (hw : s w) (hv' : s v')
    (hw' : s w') (hvw : v = w ∨ v.eq w = true) (hvw' : v' = w' ∨ v'.eq w' = true) :
    v.eq v' = w.eq w' := by
  have hleft : v.eq v' = w.eq v' := by
    rcases hvw with rfl | hvw
    · rfl
    · exact Bool.eq_iff_iff.mpr ⟨h.trans hw hv hv' (h.symm hv hw hvw), h.trans hv hw hv' hvw⟩
  have hright : w.eq v' = w.eq w' := by
    rcases hvw' with rfl | hvw'
    · rfl
    · have hwv' := h.symm hv' hw' hvw'
      exact Bool.eq_iff_iff.mpr
        ⟨fun hwv => h.trans hw hv' hw' hwv hvw', fun hww => h.trans hw hw' hv' hww hwv'⟩
  exact hleft.trans hright

theorem forall₂_symm (h : PartialEquivOn s) {xs ys : List Value} (hxs : ∀ x ∈ xs, s x)
    (hys : ∀ y ∈ ys, s y) (heq : List.Forall₂ (fun x y => x.eq y = true) xs ys) :
    List.Forall₂ (fun x y => x.eq y = true) ys xs :=
  (forall₂_imp_of_mem heq fun x hx y hy => h.symm (hxs x hx) (hys y hy)).flip

theorem forall₂_trans (h : PartialEquivOn s) {xs ys zs : List Value} (hxs : ∀ x ∈ xs, s x)
    (hys : ∀ y ∈ ys, s y) (hzs : ∀ z ∈ zs, s z)
    (hxy : List.Forall₂ (fun x y => x.eq y = true) xs ys)
    (hyz : List.Forall₂ (fun x y => x.eq y = true) ys zs) :
    List.Forall₂ (fun x y => x.eq y = true) xs zs := by
  induction hxy generalizing zs with
  | nil => exact hyz
  | cons hab _ ih =>
    obtain ⟨c, cs, hbc, hcs, rfl⟩ := List.forall₂_cons_left_iff.mp hyz
    obtain ⟨ha, hxs⟩ := List.forall_mem_cons.mp hxs
    obtain ⟨hb, hys⟩ := List.forall_mem_cons.mp hys
    obtain ⟨hc, hzs⟩ := List.forall_mem_cons.mp hzs
    exact .cons (h.trans ha hb hc hab hbc) (ih hxs hys hzs hcs)

/-- No two places with unequal keys are equal to one key. -/
theorem pairwise_partners (h : PartialEquivOn s) {α : Type} (key : α → Value) {xs ys : List α}
    (hxs : ∀ x ∈ xs, s (key x)) (hys : ∀ y ∈ ys, s (key y)) (hu : Value.Unequal (xs.map key)) :
    xs.Pairwise fun x x' => ∀ y ∈ ys, (key x).eq (key y) = true → ¬ (key x').eq (key y) = true := by
  refine (List.pairwise_map.mp hu).imp_of_mem ?_
  intro x x' hx hx' hne y hy hxy hxy'
  have hyx' := h.symm (hxs x' hx') (hys y hy) hxy'
  have hxx' := h.trans (hxs x hx) (hys y hy) (hxs x' hx') hxy hyx'
  exact Bool.false_ne_true (hne.symm.trans hxx')

/-- Under unequal keys the entry that is found is the one with an equal key. -/
theorem find?_iff (h : PartialEquivOn s) {k v : Value} {es : List (Value × Value)} (hk : s k)
    (hes : ∀ e ∈ es, s e.1) (hu : Value.Unequal (es.map Prod.fst)) :
    (∃ e, es.find? (fun e => k.eq e.1) = some e ∧ v.eq e.2 = true) ↔
      ∃ e ∈ es, k.eq e.1 = true ∧ v.eq e.2 = true := by
  constructor
  · rintro ⟨e, he, hv⟩
    exact ⟨e, List.mem_of_find?_eq_some he, by simpa using List.find?_some he, hv⟩
  · rintro ⟨e, he, hke, hv⟩
    refine ⟨e, find?_eq_some_of_unique he hke ?_, hv⟩
    intro f hf hkf
    have hek := h.symm hk (hes e he) hke
    have hfk := h.symm hk (hes f hf) hkf
    have hef := h.trans (hes e he) hk (hes f hf) hek hkf
    have hfe := h.trans (hes f hf) hk (hes e he) hfk hke
    exact eq_of_pairwise (List.pairwise_map.mp hu) hf he (by simp [hfe]) (by simp [hef])

/-- Equal sets hold the same elements up to equality, in some order. -/
theorem matched_set (h : PartialEquivOn s) {xs ys : List Value} (hxs : ∀ x ∈ xs, s x)
    (hys : ∀ y ∈ ys, s y) (hu : Value.Unequal xs) (hlen : xs.length = ys.length)
    (hall : ∀ x ∈ xs, ∃ y ∈ ys, x.eq y = true) :
    ∃ zs, zs.Perm ys ∧ List.Forall₂ (fun x y => x.eq y = true) xs zs := by
  have hu' : Value.Unequal (xs.map id) := by rwa [List.map_id]
  exact exists_perm_forall₂ hlen hall (h.pairwise_partners id hxs hys hu')

/-- Under unequal keys maps are compared entry by entry. -/
theorem eq_map_iff (h : PartialEquivOn s) {i j : Nat} {xs ys : List (Value × Value)}
    (hxs : ∀ e ∈ xs, s e.1 ∧ s e.2) (hys : ∀ f ∈ ys, s f.1 ∧ s f.2)
    (hu : Value.Unequal (ys.map Prod.fst)) : (Value.map i xs).eq (.map j ys) = true ↔
      i = j ∨ (xs.length = ys.length ∧
        ∀ e ∈ xs, ∃ f ∈ ys, Value.Both (fun x y => x.eq y = true) e f) := by
  have hentry : ∀ e ∈ xs, (∃ f, ys.find? (fun f => e.1.eq f.1) = some f ∧ e.2.eq f.2 = true) ↔
      ∃ f ∈ ys, Value.Both (fun x y => x.eq y = true) e f := fun e he =>
    h.find?_iff (hxs e he).1 (fun f hf => (hys f hf).1) hu
  rw [Value.eq_map_iff, forall₂_congr hentry]

/-- Equal maps hold the same entries up to equality, in some order. -/
theorem matched_map (h : PartialEquivOn s) {xs ys : List (Value × Value)}
    (hxs : ∀ e ∈ xs, s e.1 ∧ s e.2) (hys : ∀ f ∈ ys, s f.1 ∧ s f.2)
    (hu : Value.Unequal (xs.map Prod.fst)) (hlen : xs.length = ys.length)
    (hall : ∀ e ∈ xs, ∃ f ∈ ys, Value.Both (fun x y => x.eq y = true) e f) :
    ∃ zs, zs.Perm ys ∧ List.Forall₂ (Value.Both fun x y => x.eq y = true) xs zs := by
  have hone := h.pairwise_partners Prod.fst (fun e he => (hxs e he).1)
    (fun f hf => (hys f hf).1) hu
  exact exists_perm_forall₂ hlen hall (hone.imp fun hne f hf hk hk' => hne f hf hk.1 hk'.1)

/-! ## One step up -/

section
variable {n : Nat}

theorem below (hs : Coherent s) {v : Value} (hv : s v) (hn : sizeOf v ≤ n) :
    ∀ x ∈ v.elements, s x ∧ sizeOf x < n := fun _ hx =>
  ⟨hs.closed hv hx, Nat.lt_of_lt_of_le (Value.sizeOf_lt_of_mem_elements hx) hn⟩

theorem symm_step (hs : Coherent s) (h : PartialEquivOn fun v => s v ∧ sizeOf v < n)
    {v w : Value} (hv : s v) (hw : s w) (hvn : sizeOf v ≤ n) (hwn : sizeOf w ≤ n)
    (heq : v.eq w = true) : w.eq v = true := by
  have hdv := hs.distinct hv
  have hdw := hs.distinct hw
  have hvs := below hs hv hvn
  have hws := below hs hw hwn
  cases Value.sameKind_of_eqWith heq with
  | nil => rfl
  | bool a b => exact (Bool.beq_comm).trans heq
  | integer m k => exact (Bool.beq_comm).trans heq
  | real x y => exact (Binary64.eq_comm y x).trans heq
  | string a b => exact (Bool.beq_comm).trans heq
  | keyword a b => exact (Bool.beq_comm).trans heq
  | list i j xs ys =>
    rw [Value.eq_list_iff] at heq ⊢
    exact heq.imp Eq.symm (h.forall₂_symm hvs hws)
  | vector i j xs ys =>
    rw [Value.eq_vector_iff] at heq ⊢
    exact heq.imp Eq.symm (h.forall₂_symm hvs hws)
  | set i j xs ys =>
    rw [Value.eq_set_iff] at heq ⊢
    refine heq.imp Eq.symm fun ⟨hlen, hall⟩ => ⟨hlen.symm, fun y hy => ?_⟩
    obtain ⟨zs, hperm, hzs⟩ := h.matched_set hvs hws hdv hlen hall
    obtain ⟨x, hx, hxy⟩ := exists_left_of_mem hzs (hperm.mem_iff.mpr hy)
    exact ⟨x, hx, h.symm (hvs x hx) (hws y hy) hxy⟩
  | map i j xs ys =>
    rw [Value.forall_elements_map] at hvs hws
    rw [h.eq_map_iff hvs hws hdw] at heq
    rw [h.eq_map_iff hws hvs hdv]
    refine heq.imp Eq.symm fun ⟨hlen, hall⟩ => ⟨hlen.symm, fun f hf => ?_⟩
    obtain ⟨zs, hperm, hzs⟩ := h.matched_map hvs hws hdv hlen hall
    obtain ⟨e, he, hk, hv⟩ := exists_left_of_mem hzs (hperm.mem_iff.mpr hf)
    exact ⟨e, he, h.symm (hvs e he).1 (hws f hf).1 hk, h.symm (hvs e he).2 (hws f hf).2 hv⟩
  | var a b => exact (Bool.beq_comm).trans heq
  | callable c d =>
    simp only [Value.eq, Value.eqWith, Bool.and_eq_true, beq_iff_eq] at heq ⊢
    exact ⟨heq.1.symm, heq.2.symm⟩

theorem trans_step (hs : Coherent s) (h : PartialEquivOn fun v => s v ∧ sizeOf v < n)
    {u v w : Value} (hu : s u) (hv : s v) (hw : s w) (hun : sizeOf u ≤ n) (hvn : sizeOf v ≤ n)
    (hwn : sizeOf w ≤ n) (huv : u.eq v = true) (hvw : v.eq w = true) : u.eq w = true := by
  have hdw := hs.distinct hw
  have hus := below hs hu hun
  have hvs := below hs hv hvn
  have hws := below hs hw hwn
  cases Value.sameKind_of_eqWith huv with
  | nil => exact hvw
  | bool a b => rwa [show Value.bool a = .bool b from congrArg _ (beq_iff_eq.mp huv)]
  | integer m k => rwa [show Value.integer m = .integer k from congrArg _ (beq_iff_eq.mp huv)]
  | string a b => rwa [show Value.string a = .string b from congrArg _ (beq_iff_eq.mp huv)]
  | keyword a b => rwa [show Value.keyword a = .keyword b from congrArg _ (beq_iff_eq.mp huv)]
  | real x y =>
    cases Value.sameKind_of_eqWith hvw with
    | real _ z => exact Binary64.eq_trans huv hvw
  | var a b =>
    cases Value.sameKind_of_eqWith hvw with
    | var _ c =>
      simp only [Value.eq, Value.eqWith, beq_iff_eq] at huv hvw ⊢
      exact huv.trans hvw
  | callable c d =>
    cases Value.sameKind_of_eqWith hvw with
    | callable _ e =>
      simp only [Value.eq, Value.eqWith, Bool.and_eq_true, beq_iff_eq] at huv hvw ⊢
      exact ⟨huv.1.trans hvw.1, huv.2.trans hvw.2⟩
  | list i j xs ys =>
    cases Value.sameKind_of_eqWith hvw with
    | list _ k _ zs =>
      rcases Value.eq_list_iff.mp huv with rfl | hxy
      · rwa [hs.unique hu hv rfl rfl]
      rcases Value.eq_list_iff.mp hvw with rfl | hyz
      · rwa [← hs.unique hv hw rfl rfl]
      exact Value.eq_list_iff.mpr (.inr (h.forall₂_trans hus hvs hws hxy hyz))
  | vector i j xs ys =>
    cases Value.sameKind_of_eqWith hvw with
    | vector _ k _ zs =>
      rcases Value.eq_vector_iff.mp huv with rfl | hxy
      · rwa [hs.unique hu hv rfl rfl]
      rcases Value.eq_vector_iff.mp hvw with rfl | hyz
      · rwa [← hs.unique hv hw rfl rfl]
      exact Value.eq_vector_iff.mpr (.inr (h.forall₂_trans hus hvs hws hxy hyz))
  | set i j xs ys =>
    cases Value.sameKind_of_eqWith hvw with
    | set _ k _ zs =>
      rcases Value.eq_set_iff.mp huv with rfl | ⟨hlen, hxy⟩
      · rwa [hs.unique hu hv rfl rfl]
      rcases Value.eq_set_iff.mp hvw with rfl | ⟨hlen', hyz⟩
      · rwa [← hs.unique hv hw rfl rfl]
      refine Value.eq_set_iff.mpr (.inr ⟨hlen.trans hlen', fun x hx => ?_⟩)
      obtain ⟨y, hy, hxy⟩ := hxy x hx
      obtain ⟨z, hz, hyz⟩ := hyz y hy
      exact ⟨z, hz, h.trans (hus x hx) (hvs y hy) (hws z hz) hxy hyz⟩
  | map i j xs ys =>
    cases Value.sameKind_of_eqWith hvw with
    | map _ k _ zs =>
      have hdv := hs.distinct hv
      rw [Value.forall_elements_map] at hus hvs hws
      rcases (h.eq_map_iff hus hvs hdv).mp huv with rfl | ⟨hlen, hxy⟩
      · rwa [hs.unique hu hv rfl rfl]
      rcases (h.eq_map_iff hvs hws hdw).mp hvw with rfl | ⟨hlen', hyz⟩
      · rwa [← hs.unique hv hw rfl rfl]
      refine (h.eq_map_iff hus hws hdw).mpr (.inr ⟨hlen.trans hlen', fun e he => ?_⟩)
      obtain ⟨f, hf, hk, hv⟩ := hxy e he
      obtain ⟨g, hg, hk', hv'⟩ := hyz f hf
      exact ⟨g, hg, h.trans (hus e he).1 (hvs f hf).1 (hws g hg).1 hk hk',
        h.trans (hus e he).2 (hvs f hf).2 (hws g hg).2 hv hv'⟩

end

end PartialEquivOn

/-- In a coherent stock equality is symmetric and transitive. -/
theorem Coherent.partialEquivOn {s : Value → Prop} (hs : Coherent s) : PartialEquivOn s := by
  have hsize : ∀ n, PartialEquivOn fun v => s v ∧ sizeOf v < n := by
    intro n
    induction n with
    | zero =>
      constructor
      · exact fun hv => absurd hv.2 (Nat.not_lt_zero _)
      · exact fun hv => absurd hv.2 (Nat.not_lt_zero _)
    | succ n ih =>
      constructor
      · intro v w hv hw
        exact ih.symm_step hs hv.1 hw.1 (Nat.le_of_lt_succ hv.2) (Nat.le_of_lt_succ hw.2)
      · intro u v w hu hv hw
        exact ih.trans_step hs hu.1 hv.1 hw.1 (Nat.le_of_lt_succ hu.2) (Nat.le_of_lt_succ hv.2)
          (Nat.le_of_lt_succ hw.2)
  constructor
  · intro v w hv hw
    have hn := hsize (sizeOf v + sizeOf w + 1)
    exact hn.symm ⟨hv, by omega⟩ ⟨hw, by omega⟩
  · intro u v w hu hv hw
    have hn := hsize (sizeOf u + sizeOf v + sizeOf w + 1)
    exact hn.trans ⟨hu, by omega⟩ ⟨hv, by omega⟩ ⟨hw, by omega⟩

/-! ## Equality through lookup -/

section
variable {s : Value → Prop} {i j : Nat}

/-- Two sets of a stock are compared by looking up each element of the first in the second,
although a lookup compares the other way round. -/
theorem Coherent.eq_set_iff_findItem (hs : Coherent s) {xs ys : List Value}
    (hv : s (.set i xs)) (hw : s (.set j ys)) : (Value.set i xs).eq (.set j ys) = true ↔
      i = j ∨ (xs.length = ys.length ∧ ∀ x ∈ xs, (Value.findItem ys x).isSome = true) := by
  have hp := hs.partialEquivOn
  have hlookup : ∀ x ∈ xs, (∃ y ∈ ys, x.eq y = true) ↔ (Value.findItem ys x).isSome = true := by
    intro x hx
    rw [Value.findItem, List.find?_isSome]
    refine exists_congr fun y => and_congr_right fun hy => ?_
    rw [hp.eq_comm (hs.closed hv hx) (hs.closed hw hy)]
  rw [Value.eq_set_iff, forall₂_congr hlookup]

theorem Coherent.eq_map_iff_findEntry (hs : Coherent s) {xs ys : List (Value × Value)}
    (hv : s (.map i xs)) (hw : s (.map j ys)) : (Value.map i xs).eq (.map j ys) = true ↔
      i = j ∨ (xs.length = ys.length ∧
        ∀ e ∈ xs, ∃ v, Value.findEntry ys e.1 = some v ∧ v.eq e.2 = true) := by
  have hp := hs.partialEquivOn
  have hxs := Value.forall_elements_map.mp fun x hx => hs.closed hv hx
  have hys := Value.forall_elements_map.mp fun y hy => hs.closed hw hy
  have hlookup : ∀ e ∈ xs, (∃ f, ys.find? (fun f => e.1.eq f.1) = some f ∧ e.2.eq f.2 = true) ↔
      ∃ v, Value.findEntry ys e.1 = some v ∧ v.eq e.2 = true := by
    intro e he
    have hfind : ys.find? (fun f => e.1.eq f.1) = ys.find? (fun f => f.1.eq e.1) :=
      List.find?_congr fun f hf => hp.eq_comm (hxs e he).1 (hys f hf).1
    simp only [Value.findEntry, hfind, Option.map_eq_some_iff]
    constructor
    · rintro ⟨f, hf, hef⟩
      have hmem := List.mem_of_find?_eq_some hf
      exact ⟨f.2, ⟨f, hf, rfl⟩, hp.symm (hxs e he).2 (hys f hmem).2 hef⟩
    · rintro ⟨_, ⟨f, hf, rfl⟩, hfe⟩
      have hmem := List.mem_of_find?_eq_some hf
      exact ⟨f, hf, hp.symm (hys f hmem).2 (hxs e he).2 hfe⟩
  rw [Value.eq_map_iff, forall₂_congr hlookup]

end

/-! ## Copies -/

/-- A copy is the value itself; it equals the value unless the value is a NaN. -/
theorem Value.eq_self (v : Value) : v.eq v = !v.isNaN := by
  cases v with
  | real x => exact Binary64.eq_self x
  | _ => simp [eq, eqWith, isNaN]

/-- Equality of values that were made one after the other is symmetric and transitive, and
every value but a bare NaN equals its own copies. It compares sets and maps by looking up in the
second what is in the first, and a lookup compares the other way round. -/
theorem eq_partial_equivalence {vs : List Value} (h : Stock vs) {a b c : Value} (ha : a ∈ vs)
    (hb : b ∈ vs) (hc : c ∈ vs) :
    (a.eq b = true → b.eq a = true) ∧
    (a.eq b = true → b.eq c = true → a.eq c = true) ∧
    (a.eq a = true ↔ a.isNaN = false) ∧
    (∀ i j xs ys, a = .set i xs → b = .set j ys → (a.eq b = true ↔
      i = j ∨ (xs.length = ys.length ∧ ∀ x ∈ xs, (Value.findItem ys x).isSome = true))) ∧
    ∀ i j xs ys, a = .map i xs → b = .map j ys → (a.eq b = true ↔
      i = j ∨ (xs.length = ys.length ∧
        ∀ e ∈ xs, ∃ v, Value.findEntry ys e.1 = some v ∧ v.eq e.2 = true)) := by
  have hs := h.coherent.partialEquivOn
  refine ⟨hs.symm ha hb, hs.trans ha hb hc, ?_, ?_, ?_⟩
  · rw [Value.eq_self, Bool.not_eq_true']
  · rintro i j xs ys rfl rfl
    exact h.coherent.eq_set_iff_findItem ha hb
  · rintro i j xs ys rfl rfl
    exact h.coherent.eq_map_iff_findEntry ha hb

/-- Three maps around both zeros and a list that holds a NaN. -/
theorem eq_partial_equivalence_zeros :
    Stock.negativeMap.eq Stock.zeroMap = true ∧ Stock.zeroMap.eq Stock.mixedMap = true ∧
      Stock.nan.eq Stock.nan = false := by
  have hzero : Stock.zeroMap ∈ Stock.zeros := by simp [Stock.zeros]
  have hnegative : Stock.negativeMap ∈ Stock.zeros := by simp [Stock.zeros]
  have hmixed : Stock.mixedMap ∈ Stock.zeros := by simp [Stock.zeros]
  have hnan : Stock.nan ∈ Stock.zeros := by simp [Stock.zeros]
  have hmaps := eq_partial_equivalence Stock.stock_zeros hzero hnegative hmixed
  have hself := eq_partial_equivalence Stock.stock_zeros hnan hnan hnan
  refine ⟨hmaps.1 (by decide), hmaps.2.1 (by decide) (by decide), ?_⟩
  exact Bool.eq_false_iff.mpr (mt hself.2.2.1.mp (by decide))

end ArityDispatch

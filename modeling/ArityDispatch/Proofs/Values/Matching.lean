import Mathlib.Data.List.Forall2

/-!
# Matching two lists

Sets and maps are compared one way only: the sizes agree, and everything on the left has a
partner on the right. `exists_perm_forall₂` is the counting argument behind it, for lists
and any relation: as many places have as many different partners, so none is left over.
-/

namespace ArityDispatch

section
variable {α β : Type} {R S : α → β → Prop} {xs : List α} {ys : List β}

/-- A relation that gives every place of `xs` a partner in `ys`, and no two places the same
partner, matches two lists of one length. -/
theorem exists_perm_forall₂ (hlen : xs.length = ys.length) (hall : ∀ x ∈ xs, ∃ y ∈ ys, R x y)
    (hone : xs.Pairwise fun x x' => ∀ y ∈ ys, R x y → ¬ R x' y) :
    ∃ zs, zs.Perm ys ∧ List.Forall₂ R xs zs := by
  induction xs generalizing ys with
  | nil =>
    obtain rfl := List.length_eq_zero_iff.mp hlen.symm
    exact ⟨[], .nil, .nil⟩
  | cons x xs ih =>
    obtain ⟨hx, hxs⟩ := List.pairwise_cons.mp hone
    obtain ⟨y, hy, hxy⟩ := hall x List.mem_cons_self
    obtain ⟨l, r, rfl⟩ := List.append_of_mem hy
    have hsub : l ++ r ⊆ l ++ y :: r := by
      intro z hz
      rcases List.mem_append.mp hz with hz | hz <;> simp [hz]
    -- the partner of another place is not `y`, so it is among the others
    have hrest : ∀ x' ∈ xs, ∃ z ∈ l ++ r, R x' z := by
      intro x' hx'
      obtain ⟨z, hz, hxz⟩ := hall x' (List.mem_cons_of_mem x hx')
      rcases List.mem_append.mp hz with hz | hz
      · exact ⟨z, List.mem_append_left r hz, hxz⟩
      · rcases List.mem_cons.mp hz with rfl | hz
        · exact absurd hxz (hx x' hx' z hy hxy)
        · exact ⟨z, List.mem_append_right l hz, hxz⟩
    have hlen' : xs.length = (l ++ r).length := by
      simp only [List.length_cons, List.length_append] at hlen ⊢
      omega
    obtain ⟨zs, hperm, hzs⟩ :=
      ih hlen' hrest (hxs.imp fun h z hz => h z (hsub hz))
    exact ⟨y :: zs, (hperm.cons y).trans List.perm_middle.symm, hzs.cons hxy⟩

/-- Everything on the right of a matching has a partner on the left. -/
theorem exists_left_of_mem (h : List.Forall₂ R xs ys) {y : β} (hy : y ∈ ys) :
    ∃ x ∈ xs, R x y := by
  induction h with
  | nil => cases hy
  | cons hab _ ih =>
    rcases List.mem_cons.mp hy with rfl | hy
    · exact ⟨_, List.mem_cons_self, hab⟩
    · obtain ⟨x, hx, hxy⟩ := ih hy
      exact ⟨x, List.mem_cons_of_mem _ hx, hxy⟩

theorem forall₂_imp_of_mem (h : List.Forall₂ R xs ys) (himp : ∀ x ∈ xs, ∀ y ∈ ys, R x y → S x y) :
    List.Forall₂ S xs ys := by
  induction h with
  | nil => exact .nil
  | cons hxy _ ih =>
    refine .cons (himp _ List.mem_cons_self _ List.mem_cons_self hxy) (ih fun x hx y hy => ?_)
    exact himp x (List.mem_cons_of_mem _ hx) y (List.mem_cons_of_mem _ hy)

theorem forall₂_congr_of_mem (h : ∀ x ∈ xs, ∀ y ∈ ys, (R x y ↔ S x y)) :
    List.Forall₂ R xs ys ↔ List.Forall₂ S xs ys := by
  constructor
  · exact fun hR => forall₂_imp_of_mem hR fun x hx y hy => (h x hx y hy).mp
  · exact fun hS => forall₂_imp_of_mem hS fun x hx y hy => (h x hx y hy).mpr

/-- Two matchings in a row are one. -/
theorem forall₂_comp {γ : Type} {Q : β → γ → Prop} {T : α → γ → Prop} {zs : List γ}
    (h : List.Forall₂ R xs ys) (h' : List.Forall₂ Q ys zs)
    (hT : ∀ x y z, R x y → Q y z → T x z) : List.Forall₂ T xs zs := by
  induction h generalizing zs with
  | nil =>
    cases h'
    exact .nil
  | cons hxy _ ih =>
    cases h' with
    | cons hyz h' => exact .cons (hT _ _ _ hxy hyz) (ih h')

theorem forall_of_forall₂ {P : α → Prop} {Q : β → Prop} (h : List.Forall₂ R xs ys)
    (hR : ∀ x y, R x y → P x ∧ Q y) : (∀ x ∈ xs, P x) ∧ ∀ y ∈ ys, Q y := by
  induction h with
  | nil => simp
  | cons hxy _ ih =>
    obtain ⟨hx, hy⟩ := hR _ _ hxy
    exact ⟨List.forall_mem_cons.mpr ⟨hx, ih.1⟩, List.forall_mem_cons.mpr ⟨hy, ih.2⟩⟩

/-! ## Pairs of matched lists -/

/-- What related elements have alike, all elements of matched lists have alike. -/
theorem forall_iff_of_forall₂ {P : α → Prop} {Q : β → Prop} (h : List.Forall₂ R xs ys)
    (hPQ : ∀ x y, R x y → (P x ↔ Q y)) : (∀ x ∈ xs, P x) ↔ ∀ y ∈ ys, Q y := by
  induction h with
  | nil => simp
  | cons hxy _ ih => rw [List.forall_mem_cons, List.forall_mem_cons, hPQ _ _ hxy, ih]

theorem exists_iff_of_forall₂ {P : α → Prop} {Q : β → Prop} (h : List.Forall₂ R xs ys)
    (hPQ : ∀ x y, R x y → (P x ↔ Q y)) : (∃ x ∈ xs, P x) ↔ ∃ y ∈ ys, Q y := by
  induction h with
  | nil => simp
  | cons hxy _ ih => simp only [List.mem_cons, exists_eq_or_imp, hPQ _ _ hxy, ih]

section
variable {xs' : List α} {ys' : List β} {P : α → α → Prop} {Q : β → β → Prop}
  (hPQ : ∀ x y x' y', R x y → R x' y' → (P x x' ↔ Q y y'))
include hPQ

theorem forall₂_iff_of_forall₂ (h : List.Forall₂ R xs ys) (h' : List.Forall₂ R xs' ys') :
    List.Forall₂ P xs xs' ↔ List.Forall₂ Q ys ys' := by
  induction h generalizing xs' ys' with
  | nil => cases h' <;> simp
  | cons hxy _ ih =>
    cases h' with
    | nil => simp
    | cons hxy' h' => rw [List.forall₂_cons, List.forall₂_cons, hPQ _ _ _ _ hxy hxy', ih h']

/-- Whether a list has a partner for everything in another does not depend on the order. -/
theorem partners_iff_of_forall₂ {zs zs' : List β} (h : List.Forall₂ R xs zs)
    (h' : List.Forall₂ R xs' zs') (hperm : zs.Perm ys) (hperm' : zs'.Perm ys') :
    (xs.length = xs'.length ∧ ∀ x ∈ xs, ∃ x' ∈ xs', P x x') ↔
      ys.length = ys'.length ∧ ∀ y ∈ ys, ∃ y' ∈ ys', Q y y' := by
  have hall : (∀ x ∈ xs, ∃ x' ∈ xs', P x x') ↔ ∀ z ∈ zs, ∃ z' ∈ zs', Q z z' :=
    forall_iff_of_forall₂ h fun x z hxz =>
      exists_iff_of_forall₂ h' fun x' z' hxz' => hPQ x z x' z' hxz hxz'
  rw [h.length_eq, h'.length_eq, hall, hperm.length_eq, hperm'.length_eq]
  simp only [hperm.mem_iff, hperm'.mem_iff]

end

end

/-- The only element with a property is the one that is found. -/
theorem find?_eq_some_of_unique {α : Type} {p : α → Bool} {xs : List α} {x : α} (hx : x ∈ xs)
    (hp : p x = true) (hone : ∀ y ∈ xs, p y = true → y = x) : xs.find? p = some x := by
  cases h : xs.find? p with
  | none => exact absurd hp (by simpa using List.find?_eq_none.mp h x hx)
  | some y => rw [hone y (List.mem_of_find?_eq_some h) (List.find?_some h)]

/-- Where only one element has a property, the order does not matter for finding it. -/
theorem find?_perm_of_unique {α : Type} {p : α → Bool} {xs ys : List α} (h : xs.Perm ys)
    (hone : ∀ x ∈ ys, ∀ y ∈ ys, p x = true → p y = true → x = y) : xs.find? p = ys.find? p := by
  cases hxs : xs.find? p with
  | none =>
    have hnone := List.find?_eq_none.mp hxs
    exact (List.find?_eq_none.mpr fun y hy => hnone y (h.mem_iff.mpr hy)).symm
  | some x =>
    have hx : x ∈ ys := h.subset (List.mem_of_find?_eq_some hxs)
    have hp := List.find?_some hxs
    exact (find?_eq_some_of_unique hx hp fun y hy hy' => hone y hy x hx hy' hp).symm

/-- In matched lists what is found on both sides is related. -/
theorem rel_find?_of_forall₂ {α β : Type} {R : α → β → Prop} {p : α → Bool} {q : β → Bool}
    {xs : List α} {ys : List β} (h : List.Forall₂ R xs ys) (hpq : ∀ x y, R x y → p x = q y) :
    Option.Rel R (xs.find? p) (ys.find? q) := by
  induction h with
  | nil => exact .none
  | @cons x y _ _ hxy _ ih =>
    rw [List.find?_cons, List.find?_cons, hpq x y hxy]
    cases q y with
    | true => exact .some hxy
    | false => exact ih

/-- Two members of a list that are unrelated both ways stand in one place. -/
theorem eq_of_pairwise {α : Type} {R : α → α → Prop} {xs : List α} (h : xs.Pairwise R) {x y : α}
    (hx : x ∈ xs) (hy : y ∈ xs) (hxy : ¬ R x y) (hyx : ¬ R y x) : x = y := by
  induction h with
  | nil => cases hx
  | cons hhead _ ih =>
    rcases List.mem_cons.mp hx with rfl | hx' <;> rcases List.mem_cons.mp hy with rfl | hy'
    · rfl
    · exact absurd (hhead y hy') hxy
    · exact absurd (hhead x hx') hyx
    · exact ih hx' hy'

end ArityDispatch

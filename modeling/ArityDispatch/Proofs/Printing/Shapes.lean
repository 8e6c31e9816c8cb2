import ArityDispatch.Proofs.Values.Equality

/-!
# Plain data and its shape

Plain data is built from nil, truth values, integers, strings and collections only. Its shape is
what is left when the identities of the collections are forgotten: the variants, and the elements
or entries in order. Plain data of one shape is equal. The other way round nothing follows, since
sets and maps are compared without regard to order.
-/

namespace ArityDispatch

/-- Data without numbers that are not integers, without keywords, vars and callables. -/
inductive Value.Plain : Value → Prop
  | nil : Plain .nil
  | bool (b : Bool) : Plain (.bool b)
  | integer (n : Int64) : Plain (.integer n)
  | string (s : String) : Plain (.string s)
  | list {id : Nat} {items : List Value} : (∀ v ∈ items, Plain v) → Plain (.list id items)
  | vector {id : Nat} {items : List Value} : (∀ v ∈ items, Plain v) → Plain (.vector id items)
  | map {id : Nat} {entries : List (Value × Value)} : (∀ e ∈ entries, Plain e.1) →
      (∀ e ∈ entries, Plain e.2) → Plain (.map id entries)
  | set {id : Nat} {items : List Value} : (∀ v ∈ items, Plain v) → Plain (.set id items)

mutual

/-- The value without the identities of its collections: its variant, and the shapes of its
elements or entries in order. -/
def Value.shape : Value → Value
  | .list _ items => .list 0 (Value.shapeItems items)
  | .vector _ items => .vector 0 (Value.shapeItems items)
  | .map _ entries => .map 0 (Value.shapeEntries entries)
  | .set _ items => .set 0 (Value.shapeItems items)
  | v => v
termination_by structural v => v

def Value.shapeItems : List Value → List Value
  | [] => []
  | v :: rest => v.shape :: Value.shapeItems rest
termination_by structural vs => vs

def Value.shapeEntries : List (Value × Value) → List (Value × Value)
  | [] => []
  | (k, v) :: rest => (k.shape, v.shape) :: Value.shapeEntries rest
termination_by structural es => es

end

namespace Value

section
variable (items : List Value) (entries : List (Value × Value))

theorem shapeItems_eq_map : shapeItems items = items.map shape := by
  induction items with
  | nil => rfl
  | cons v items ih => rw [shapeItems, ih, List.map_cons]

theorem shapeEntries_eq_map : shapeEntries entries = entries.map (Prod.map shape shape) := by
  induction entries with
  | nil => rfl
  | cons e entries ih => rw [shapeEntries, ih, List.map_cons, Prod.map]

theorem forall₂_of_map_eq {α β : Type} {look : α → β} {xs ys : List α}
    (h : xs.map look = ys.map look) : List.Forall₂ (fun x y => look x = look y) xs ys := by
  rwa [← List.forall₂_eq_eq_eq, List.forall₂_map_left_iff, List.forall₂_map_right_iff] at h

variable {items entries}

theorem forall₂_of_shapeItems {items' : List Value} (h : shapeItems items = shapeItems items') :
    List.Forall₂ (fun v w => v.shape = w.shape) items items' := by
  rw [shapeItems_eq_map, shapeItems_eq_map] at h
  exact forall₂_of_map_eq h

theorem forall₂_of_shapeEntries {entries' : List (Value × Value)}
    (h : shapeEntries entries = shapeEntries entries') :
    List.Forall₂ (Both fun v w => v.shape = w.shape) entries entries' := by
  rw [shapeEntries_eq_map, shapeEntries_eq_map] at h
  exact (forall₂_of_map_eq h).imp fun _ _ heq => Prod.ext_iff.mp heq

end

theorem Plain.elements {v : Value} (h : v.Plain) : ∀ w ∈ v.elements, w.Plain := by
  cases h with
  | list hitems => exact hitems
  | vector hitems => exact hitems
  | map hkeys hvalues => exact forall_elements_map.mpr fun e he => ⟨hkeys e he, hvalues e he⟩
  | set hitems => exact hitems
  | _ => simp [Value.elements]

theorem sameKind_of_shape {v w : Value} (h : v.shape = w.shape) : SameKind v w := by
  cases v <;> cases w <;> first | constructor | (cases h)

end Value

section
variable {s : Value → Prop} {v w : Value}

/-- Plain data of one shape is equal if what is in it is. -/
theorem Coherent.eq_of_shape_step (hs : Coherent s) (hv : s v) (hw : s w) (hplain : v.Plain)
    (hshape : v.shape = w.shape)
    (h : ∀ x ∈ v.elements, ∀ y ∈ w.elements, x.shape = y.shape → x.eq y = true) :
    v.eq w = true := by
  cases Value.sameKind_of_shape hshape with
  | list i j xs ys =>
    have hitems := Value.forall₂_of_shapeItems (Value.list.inj hshape).2
    exact Value.eq_list_iff.mpr (.inr (forall₂_imp_of_mem hitems h))
  | vector i j xs ys =>
    have hitems := Value.forall₂_of_shapeItems (Value.vector.inj hshape).2
    exact Value.eq_vector_iff.mpr (.inr (forall₂_imp_of_mem hitems h))
  | set i j xs ys =>
    have hitems := Value.forall₂_of_shapeItems (Value.set.inj hshape).2
    have hmatch := forall₂_imp_of_mem hitems h
    refine Value.eq_set_iff.mpr (.inr ⟨hmatch.length_eq, fun x hx => ?_⟩)
    exact exists_left_of_mem hmatch.flip hx
  | map i j es fs =>
    have hentries := Value.forall₂_of_shapeEntries (Value.map.inj hshape).2
    have hmatch : List.Forall₂ (Value.Both fun x y => x.eq y = true) es fs :=
      forall₂_imp_of_mem hentries fun e he f hf hef =>
        ⟨h _ (Value.mem_elements_map he).1 _ (Value.mem_elements_map hf).1 hef.1,
          h _ (Value.mem_elements_map he).2 _ (Value.mem_elements_map hf).2 hef.2⟩
    have hes := Value.forall_elements_map.mp fun x hx => hs.closed hv hx
    have hfs := Value.forall_elements_map.mp fun y hy => hs.closed hw hy
    refine (hs.partialEquivOn.eq_map_iff hes hfs (hs.distinct hw)).mpr (.inr ?_)
    exact ⟨hmatch.length_eq, fun e he => exists_left_of_mem hmatch.flip he⟩
  | nil => rfl
  | bool a b =>
    obtain rfl := Value.bool.inj hshape
    exact Value.eq_self (.bool a)
  | integer m n =>
    obtain rfl := Value.integer.inj hshape
    exact Value.eq_self (.integer m)
  | string a b =>
    obtain rfl := Value.string.inj hshape
    exact Value.eq_self (.string a)
  | real _ _ => cases hplain
  | keyword _ _ => cases hplain
  | var _ _ => cases hplain
  | callable _ _ => cases hplain

theorem Coherent.eq_of_shape (hs : Coherent s) {v w : Value} (hv : s v) (hw : s w)
    (hplain : v.Plain) (hshape : v.shape = w.shape) : v.eq w = true := by
  refine hs.eq_of_shape_step hv hw hplain hshape fun x hx y hy hxy => ?_
  exact hs.eq_of_shape (hs.closed hv hx) (hs.closed hw hy) (hplain.elements x hx) hxy
termination_by sizeOf v
decreasing_by exact Value.sizeOf_lt_of_mem_elements hx

end

end ArityDispatch

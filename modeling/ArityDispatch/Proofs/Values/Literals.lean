import ArityDispatch.Proofs.Values.Stock

/-!
# Literals build stocks

A session writes its values down as literals. Building one draws identities from a counter,
first for a collection and then for what it holds, so that the identity of the collection
is below those of its parts and above all that were drawn before. Whatever handles stand
for, the stock that is there grows into a larger stock.
-/

namespace ArityDispatch

/-- All identities in the stock are below `n`. -/
def Below (n : Nat) (vs : List Value) : Prop := ∀ v ∈ vs, ∀ i, v.identity? = some i → i < n

/-- A stock has grown by `ws` while the counter went from `n` to `m`. -/
structure Grown (vs ws : List Value) (n m : Nat) : Prop where
  stock : Stock (ws ++ vs)
  le : n ≤ m
  drawn : ∀ w ∈ ws, ∀ i, w.identity? = some i → n ≤ i ∧ i < m

namespace Grown

variable {vs ws us : List Value} {n k m : Nat}

theorem refl (h : Stock vs) : Grown vs [] n n where
  stock := h
  le := Nat.le_refl n
  drawn := by simp

theorem trans (h : Grown vs ws n k) (h' : Grown (ws ++ vs) us k m) :
    Grown vs (us ++ ws) n m where
  stock := by
    rw [List.append_assoc]
    exact h'.stock
  le := Nat.le_trans h.le h'.le
  drawn w hw i hi := by
    have hle := h.le
    have hle' := h'.le
    rcases List.mem_append.mp hw with hw | hw
    · have hdrawn := h'.drawn w hw i hi
      omega
    · have hdrawn := h.drawn w hw i hi
      omega

theorem below (h : Grown vs ws n m) (hn : Below n vs) : Below m (ws ++ vs) := by
  intro w hw i hi
  rcases List.mem_append.mp hw with hw | hw
  · exact (h.drawn w hw i hi).2
  · have hle := h.le
    have hlt := hn w hw i hi
    omega

/-- An identity that was drawn first is not used for the parts. -/
theorem fresh (h : Grown vs ws (n + 1) m) (hn : Below n vs) : Fresh n (ws ++ vs) := by
  intro w hw hi
  rcases List.mem_append.mp hw with hw | hw
  · have hle := (h.drawn w hw n hi).1
    omega
  · have hlt := hn w hw n hi
    omega

theorem collection {v : Value} (h : Grown vs ws (n + 1) m) (hv : v.identity? = some n)
    (hstock : Stock (v :: (ws ++ vs))) : Grown vs (v :: ws) n m where
  stock := hstock
  le := Nat.le_of_succ_le h.le
  drawn w hw i hi := by
    have hle := h.le
    rcases List.mem_cons.mp hw with rfl | hw
    · obtain rfl := Option.some.inj (hv.symm.trans hi)
      omega
    · have hdrawn := h.drawn w hw i hi
      omega

theorem plain {v : Value} (h : Stock vs) (hv : v.identity? = none) : Grown vs [v] n n where
  stock := .plain h hv
  le := Nat.le_refl n
  drawn w hw i hi := by
    obtain rfl := List.mem_singleton.mp hw
    cases hv.symm.trans hi

end Grown

section
variable {held : String → Option Value}

mutual

/-- Building a literal from held values of a stock makes the stock grow, and the value is in
it afterwards. -/
theorem Literal.build_grown (l : Literal) {n m : Nat} {vs : List Value} {v : Value} (h : Stock vs)
    (hn : Below n vs) (hheld : ∀ name v, held name = some v → v ∈ vs)
    (hb : l.build held n = some (v, m)) : ∃ ws, Grown vs ws n m ∧ v ∈ ws ++ vs := by
  have hplain : ∀ {w : Value}, w.identity? = none → some (w, n) = some (v, m) →
      ∃ ws, Grown vs ws n m ∧ v ∈ ws ++ vs := by
    intro w hw hb
    cases hb
    exact ⟨[v], .plain h hw, List.mem_cons_self⟩
  have hn' : Below (n + 1) vs := fun w hw i hi => Nat.lt_succ_of_lt (hn w hw i hi)
  cases l with
  | list items =>
    simp only [Literal.build, Option.map_eq_some_iff, Prod.mk.injEq] at hb
    obtain ⟨⟨xs, m⟩, hxs, rfl, rfl⟩ := hb
    obtain ⟨ws, hws, hsub⟩ := Literal.buildItems_grown items h hn' hheld hxs
    exact ⟨_, hws.collection rfl (.list hws.stock (hws.fresh hn) hsub), List.mem_cons_self⟩
  | vector items =>
    simp only [Literal.build, Option.map_eq_some_iff, Prod.mk.injEq] at hb
    obtain ⟨⟨xs, m⟩, hxs, rfl, rfl⟩ := hb
    obtain ⟨ws, hws, hsub⟩ := Literal.buildItems_grown items h hn' hheld hxs
    exact ⟨_, hws.collection rfl (.vector hws.stock (hws.fresh hn) hsub), List.mem_cons_self⟩
  | set items =>
    simp only [Literal.build, Option.map_eq_some_iff, Prod.mk.injEq] at hb
    obtain ⟨⟨xs, m⟩, hxs, rfl, rfl⟩ := hb
    obtain ⟨ws, hws, hsub⟩ := Literal.buildItems_grown items h hn' hheld hxs
    exact ⟨_, hws.collection rfl (.set hws.stock (hws.fresh hn) hsub), List.mem_cons_self⟩
  | map entries =>
    simp only [Literal.build, Option.map_eq_some_iff, Prod.mk.injEq] at hb
    obtain ⟨⟨es, m⟩, hes, rfl, rfl⟩ := hb
    obtain ⟨ws, hws, hsub⟩ := Literal.buildEntries_grown entries h hn' hheld hes
    exact ⟨_, hws.collection rfl (.map hws.stock (hws.fresh hn) hsub), List.mem_cons_self⟩
  | handle name =>
    simp only [Literal.build, Option.map_eq_some_iff, Prod.mk.injEq] at hb
    obtain ⟨w, hw, rfl, rfl⟩ := hb
    exact ⟨[], .refl h, hheld name w hw⟩
  | _ => exact hplain rfl hb
termination_by sizeOf l

theorem Literal.buildItems_grown (ls : List Literal) {n m : Nat} {vs items : List Value}
    (h : Stock vs) (hn : Below n vs) (hheld : ∀ name v, held name = some v → v ∈ vs)
    (hb : Literal.buildItems held ls n = some (items, m)) :
    ∃ ws, Grown vs ws n m ∧ items ⊆ ws ++ vs := by
  cases ls with
  | nil =>
    cases hb
    exact ⟨[], .refl h, List.nil_subset _⟩
  | cons l ls =>
    simp only [Literal.buildItems, Option.bind_eq_some_iff, Option.map_eq_some_iff,
      Prod.mk.injEq] at hb
    obtain ⟨⟨v, k⟩, hv, ⟨xs, m⟩, hxs, rfl, rfl⟩ := hb
    obtain ⟨ws, hws, hmem⟩ := Literal.build_grown l h hn hheld hv
    have hheld' : ∀ name v, held name = some v → v ∈ ws ++ vs :=
      fun name v hv => List.mem_append_right ws (hheld name v hv)
    obtain ⟨us, hus, hsub⟩ := Literal.buildItems_grown ls hws.stock (hws.below hn) hheld' hxs
    refine ⟨us ++ ws, hws.trans hus, ?_⟩
    rw [List.append_assoc]
    exact List.cons_subset.mpr ⟨List.mem_append_right us hmem, hsub⟩
termination_by sizeOf ls

theorem Literal.buildEntries_grown (es : List (Literal × Literal)) {n m : Nat} {vs : List Value}
    {entries : List (Value × Value)} (h : Stock vs) (hn : Below n vs)
    (hheld : ∀ name v, held name = some v → v ∈ vs)
    (hb : Literal.buildEntries held es n = some (entries, m)) :
    ∃ ws, Grown vs ws n m ∧ ∀ e ∈ entries, e.1 ∈ ws ++ vs ∧ e.2 ∈ ws ++ vs := by
  match es, hb with
  | [], hb =>
    cases hb
    exact ⟨[], .refl h, by simp⟩
  | (l, r) :: es, hb =>
    simp only [Literal.buildEntries, Option.bind_eq_some_iff, Option.map_eq_some_iff,
      Prod.mk.injEq] at hb
    obtain ⟨⟨k, p⟩, hk, ⟨v, q⟩, hv, ⟨fs, m⟩, hfs, rfl, rfl⟩ := hb
    have hmono : ∀ us us' : List Value, (∀ name v, held name = some v → v ∈ us) →
        ∀ name v, held name = some v → v ∈ us' ++ us :=
      fun _ us' hus name v hv => List.mem_append_right us' (hus name v hv)
    obtain ⟨ws, hws, hkey⟩ := Literal.build_grown l h hn hheld hk
    obtain ⟨us, hus, hvalue⟩ :=
      Literal.build_grown r hws.stock (hws.below hn) (hmono _ ws hheld) hv
    obtain ⟨ts, hts, hrest⟩ := Literal.buildEntries_grown es hus.stock (hus.below (hws.below hn))
      (hmono _ us (hmono _ ws hheld)) hfs
    refine ⟨ts ++ (us ++ ws), (hws.trans hus).trans ?_, ?_⟩
    · rw [List.append_assoc]
      exact hts
    · rw [List.append_assoc, List.append_assoc]
      have hkey' := List.mem_append_right ts (List.mem_append_right us hkey)
      exact List.forall_mem_cons.mpr ⟨⟨hkey', List.mem_append_right ts hvalue⟩, hrest⟩
termination_by sizeOf es

end

end

end ArityDispatch

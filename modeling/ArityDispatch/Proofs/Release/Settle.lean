import ArityDispatch.Proofs.Release.Live

/-!
# Giving up what nothing holds

One round gives up vars that neither the outside nor an environment nor a root holds, so it
leaves no handle dangling that is held from outside. The rounds come to an end with the vars: each
round but the last gives up one var at least. What is then left is kept by something, and nothing
is given up a second time.
-/

namespace ArityDispatch.Store

variable {β : Type} {st st' st'' : Store β} {held : List Nat} {v : Value}

/-- Nothing is left that nothing keeps. -/
structure Settled (held : List Nat) (st : Store β) : Prop where
  roots : ∀ id ∈ st.roots.keys, id ∈ st.keepers held
  callees : ∀ id ∈ st.callees.keys, id ∈ st.keepers held

/-- Some vars of a store have been given up, and whatever the outside holds is still live. -/
structure Sheds (held : List Nat) (st st' : Store β) : Prop where
  sound : st'.Sound
  next : st'.next = st.next
  callees : st'.callees = st.callees
  live : ∀ {v : Value}, v.refs ⊆ held → st.Live v → st'.Live v

/-- Some callables have been given up besides, and those of them that owe their context
back are `owing`. -/
structure Released (held : List Nat) (st after : Store β) (owing : List Nat) : Prop where
  sound : after.Sound
  settled : Settled held after
  next : after.next = st.next
  live : ∀ {v : Value}, v.refs ⊆ held → st.Live v → after.Live v
  callees : after.callees.keys ⊆ st.callees.keys
  gone : ∀ {id}, id ∈ owing → id ∉ after.callees.keys
  debts : (owing ++ after.debts).Perm st.debts

theorem mem_named_iff (hs : st.Sound) {id : Nat} :
    id ∈ st.named ↔ ∃ env e ns name x, st.environment? env = some e ∧
      e.find? ns name = some x ∧ x.id = id := by
  simp only [named, List.mem_flatMap, List.mem_map, hs.environments_unique.mem_values_iff]
  constructor
  · rintro ⟨e, ⟨env, he⟩, x, hx, rfl⟩
    obtain ⟨⟨ns, name⟩, hfind⟩ := (hs.knows he).unique.mem_values_iff.mp hx
    exact ⟨env, e, ns, name, x, he, hfind, rfl⟩
  · rintro ⟨env, e, ns, name, x, he, hfind, rfl⟩
    exact ⟨e, ⟨env, he⟩, x, (hs.knows he).unique.mem_values_iff.mpr ⟨(ns, name), hfind⟩, rfl⟩

theorem mem_rootRefs_iff (hs : st.Sound) {id : Nat} :
    id ∈ st.rootRefs ↔ ∃ x root, st.root? x = some root ∧ id ∈ root.refs := by
  have hroot : ∀ root, some root ∈ st.roots.values ↔ ∃ x, st.root? x = some root := by
    intro root
    simp only [hs.roots_unique.mem_values_iff, root?, Option.join_eq_some_iff]
    constructor
    · rintro ⟨k, hk⟩
      exact ⟨⟨k, "", ""⟩, hk⟩
    · rintro ⟨x, hx⟩
      exact ⟨x.id, hx⟩
  rw [rootRefs, List.mem_flatMap]
  constructor
  · rintro ⟨root, hmem, hid⟩
    cases root with
    | none => cases hid
    | some root =>
      obtain ⟨x, hx⟩ := (hroot root).mp hmem
      exact ⟨x, root, hx, hid⟩
  · rintro ⟨x, root, hx, hid⟩
    exact ⟨some root, (hroot root).mpr ⟨x, hx⟩, hid⟩

/-- A value stays live if what it holds stays. -/
theorem Live.shrink (hv : st.Live v)
    (hroots : ∀ id ∈ v.refs, id ∈ st.roots.keys → id ∈ st'.roots.keys)
    (hcallees : ∀ id ∈ v.refs, id ∈ st.callees.keys → id ∈ st'.callees.keys) : st'.Live v := by
  intro w hw
  have hhas := hv w hw
  cases w with
  | var x => exact hroots x.id ((Value.mem_refs_iff v).mpr ⟨_, hw, rfl⟩) hhas
  | callable c => exact hcallees c.id ((Value.mem_refs_iff v).mpr ⟨_, hw, rfl⟩) hhas
  | _ => trivial

theorem Live.lt_next (hs : st.Sound) (hv : st.Live v) : ∀ id ∈ v.refs, id < st.next := by
  intro id hid
  obtain ⟨w, hw, hcell⟩ := (Value.mem_refs_iff v).mp hid
  have hhas := hv w hw
  cases w with
  | var x => exact Option.some.inj hcell ▸ hs.roots_lt hhas
  | callable c => exact Option.some.inj hcell ▸ hs.callees_lt hhas
  | _ => cases hcell

/-- An identity in a live value that is the identity of a var is that of a var in it. -/
theorem Sound.reaches_var (hs : st.Sound) (hv : st.Live v) {id : Nat} (hrefs : id ∈ v.refs)
    (hid : id ∈ st.roots.keys) : ∃ x : Var, x.id = id ∧ st.Reaches v (.var x) := by
  obtain ⟨w, hw, hcell⟩ := (Value.mem_refs_iff v).mp hrefs
  have hhas := hv w hw
  cases w with
  | var x => exact ⟨x, Option.some.inj hcell, .of_contains hw⟩
  | callable c =>
    obtain rfl := Option.some.inj hcell
    exact absurd hhas (hs.apart hid)
  | _ => cases hcell

theorem Sound.reaches_callable (hs : st.Sound) (hv : st.Live v) {id : Nat} (hrefs : id ∈ v.refs)
    (hid : id ∈ st.callees.keys) : ∃ c : Callable, c.id = id ∧ st.Reaches v (.callable c) := by
  obtain ⟨w, hw, hcell⟩ := (Value.mem_refs_iff v).mp hrefs
  have hhas := hv w hw
  cases w with
  | callable c => exact ⟨c, Option.some.inj hcell, .of_contains hw⟩
  | var x =>
    obtain rfl := Option.some.inj hcell
    exact absurd hid (hs.apart hhas)
  | _ => cases hcell

theorem mem_roots_of_root? {x : Var} {root : Value} (h : st.root? x = some root) :
    x.id ∈ st.roots.keys := by
  have hget := Option.join_eq_some_iff.mp h
  exact Table.mem_keys_iff_isSome.mpr (by simp [hget])

/-! ## Rounds -/

theorem Sheds.refl (hs : st.Sound) : Sheds held st st where
  sound := hs
  next := rfl
  callees := rfl
  live _ hv := hv

theorem Sheds.trans (h : Sheds held st st') (h' : Sheds held st' st'') : Sheds held st st'' where
  sound := h'.sound
  next := h'.next.trans h.next
  callees := h'.callees.trans h.callees
  live hrefs hv := h'.live hrefs (h.live hrefs hv)

theorem mem_keys_giveUpVars {id : Nat} :
    id ∈ (st.giveUpVars held).roots.keys ↔ id ∈ st.roots.keys ∧ id ∈ st.keepers held := by
  simp [giveUpVars, Table.keys_filterKeys]

theorem mem_keepers_iff {id : Nat} :
    id ∈ st.keepers held ↔ id ∈ held ∨ id ∈ st.named ∨ id ∈ st.rootRefs := by
  simp [keepers]

theorem live_giveUpVars (hv : st.Live v) (hrefs : v.refs ⊆ st.keepers held) :
    (st.giveUpVars held).Live v :=
  hv.shrink (fun _ hid hroot => mem_keys_giveUpVars.mpr ⟨hroot, hrefs hid⟩) fun _ _ => id

theorem root?_giveUpVars {x : Var} {root : Value} (h : (st.giveUpVars held).root? x = some root) :
    st.root? x = some root := by
  rw [root?, giveUpVars, Table.get?_filterKeys] at h
  split_ifs at h
  · exact h
  · cases h

theorem sheds_giveUpVars (hs : st.Sound) : Sheds held st (st.giveUpVars held) where
  sound :=
    { hs with
      roots_unique := hs.roots_unique.filterKeys _
      roots_lt := fun hid => hs.roots_lt (mem_keys_giveUpVars.mp hid).1
      apart := fun hid => hs.apart (mem_keys_giveUpVars.mp hid).1
      live := fun {x root} hroot => by
        have hold := root?_giveUpVars hroot
        refine live_giveUpVars (hs.live hold) fun id hid => mem_keepers_iff.mpr (.inr (.inr ?_))
        exact (mem_rootRefs_iff hs).mpr ⟨x, root, hold, hid⟩
      knows := fun {env e} he =>
        ⟨(hs.knows he).unique, fun {ns name x} hfind => mem_keys_giveUpVars.mpr
          ⟨(hs.knows he).there hfind, mem_keepers_iff.mpr (.inr (.inl
            ((mem_named_iff hs).mpr ⟨env, e, ns, name, x, he, hfind, rfl⟩)))⟩⟩ }
  next := rfl
  callees := rfl
  live hrefs hv := live_giveUpVars hv fun _ hid => mem_keepers_iff.mpr (.inl (hrefs hid))

theorem sheds_settleVars (hs : st.Sound) (rounds : Nat) :
    Sheds held st (st.settleVars held rounds) := by
  induction rounds generalizing st with
  | zero => exact .refl hs
  | succ rounds ih =>
    have hround : Sheds held st (st.giveUpVars held) := sheds_giveUpVars hs
    simp only [settleVars]
    split_ifs
    · exact .refl hs
    · exact hround.trans (ih hround.sound)

/-- A round that gives up no var finds each of them kept. -/
theorem kept_of_size_eq (h : (st.giveUpVars held).roots.size = st.roots.size) :
    ∀ id ∈ st.roots.keys, id ∈ st.keepers held := by
  have hfilter : ∀ id ∈ st.roots.keys, (st.keepers held).contains id = true := by
    rw [Table.size_eq, Table.size_eq, giveUpVars, Table.keys_filterKeys] at h
    exact List.length_filter_eq_length_iff.mp h
  simpa using hfilter

theorem kept_settleVars {rounds : Nat} (hrounds : st.roots.size ≤ rounds) :
    ∀ id ∈ (st.settleVars held rounds).roots.keys,
      id ∈ (st.settleVars held rounds).keepers held := by
  induction rounds generalizing st with
  | zero =>
    have hempty : st.roots.keys = [] := by
      rw [← List.length_eq_zero_iff, ← Table.size_eq]
      exact Nat.le_zero.mp hrounds
    simp [settleVars, hempty]
  | succ rounds ih =>
    have hle : (st.giveUpVars held).roots.size ≤ st.roots.size := by
      rw [Table.size_eq, Table.size_eq, giveUpVars, Table.keys_filterKeys]
      exact List.length_filter_le ..
    simp only [settleVars]
    -- a round that does not end the loop leaves fewer vars, so the rounds still suffice
    split_ifs with hsize
    · exact kept_of_size_eq hsize
    · exact ih (by omega)

/-! ## Release -/

/-- What is owed is either reported or still owed. -/
theorem perm_debts (st : Store β) (kept : List Nat) :
    ((st.callees.entries.filter fun e => !kept.contains e.1 && e.2.context.owes).map Prod.fst ++
      debts { st with callees := st.callees.filterKeys kept.contains }).Perm st.debts := by
  let owes := st.callees.entries.filter fun e => e.2.context.owes
  have howing : (st.callees.entries.filter fun e => !kept.contains e.1 && e.2.context.owes) =
      owes.filter fun e => !kept.contains e.1 := by
    rw [List.filter_filter]
  have hleft : ((st.callees.entries.filter fun e => kept.contains e.1).filter
      fun e => e.2.context.owes) = owes.filter fun e => kept.contains e.1 := by
    rw [List.filter_filter, List.filter_filter]
    simp only [Bool.and_comm]
  have hall : (owes.filter (fun e => !kept.contains e.1) ++
      owes.filter fun e => kept.contains e.1).Perm owes :=
    List.perm_append_comm.trans (List.filter_append_perm _ owes)
  rw [debts, debts, Table.filterKeys, hleft, howing, ← List.map_append]
  exact hall.map Prod.fst

theorem Sound.release (hs : st.Sound) (held : List Nat) :
    Released held st (st.release held).1 (st.release held).2 := by
  let settled := st.settleVars held st.roots.size
  have hsheds : Sheds held st settled := sheds_settleVars hs st.roots.size
  have hroots : ∀ id ∈ settled.roots.keys, id ∈ settled.keepers held := kept_settleVars le_rfl
  have hkeys : ∀ {id}, id ∈ (st.release held).1.callees.keys ↔
      id ∈ settled.callees.keys ∧ id ∈ settled.keepers held := by
    simp [Store.release, Table.keys_filterKeys, settled]
  have hlive : ∀ {v : Value}, v.refs ⊆ settled.keepers held → settled.Live v →
      (st.release held).1.Live v :=
    fun hrefs hv => hv.shrink (fun _ _ => id) fun _ hid hcallee => hkeys.mpr ⟨hcallee, hrefs hid⟩
  exact
    { sound :=
        { hsheds.sound with
          callees_unique := hsheds.sound.callees_unique.filterKeys _
          callees_lt := fun hid => hsheds.sound.callees_lt (hkeys.mp hid).1
          apart := fun hroot hid => hsheds.sound.apart hroot (hkeys.mp hid).1
          live := fun {x root} hroot => by
            refine hlive (fun id hid => mem_keepers_iff.mpr (.inr (.inr ?_)))
              (hsheds.sound.live (x := x) hroot)
            exact (mem_rootRefs_iff hsheds.sound).mpr ⟨x, root, hroot, hid⟩
          knows := fun he => (hsheds.sound.knows he).mono (List.Subset.refl _) }
      settled := ⟨hroots, fun id hid => (hkeys.mp hid).2⟩
      next := hsheds.next
      live := fun hrefs hv =>
        hlive (fun _ hid => mem_keepers_iff.mpr (.inl (hrefs hid))) (hsheds.live hrefs hv)
      callees := fun id hid => hsheds.callees ▸ (hkeys.mp hid).1
      gone := fun {id} howing hid => by
        obtain ⟨e, he, rfl⟩ := List.mem_map.mp howing
        have hdropped : e.1 ∉ settled.keepers held := by
          have htest := (List.mem_filter.mp he).2
          simp only [Bool.and_eq_true, Bool.not_eq_true', List.contains_eq_mem,
            decide_eq_false_iff_not] at htest
          exact htest.1
        exact hdropped (hkeys.mp hid).2
      debts := by
        have hdebts : settled.debts = st.debts := by rw [debts, debts, hsheds.callees]
        exact hdebts ▸ perm_debts settled (settled.keepers held) }

/-! ## Settled stores -/

theorem settleVars_eq_self (h : ∀ id ∈ st.roots.keys, id ∈ st.keepers held) (rounds : Nat) :
    st.settleVars held rounds = st := by
  have hsame : st.giveUpVars held = st := by
    rw [giveUpVars, Table.filterKeys_eq_self (by simpa using h)]
  cases rounds with
  | zero => rfl
  | succ rounds => simp only [settleVars, hsame, if_true]

theorem Settled.owes_nothing (h : Settled held st) :
    (st.callees.entries.filter fun e => !(st.keepers held).contains e.1 && e.2.context.owes) =
      [] := by
  refine List.filter_eq_nil_iff.mpr fun e he => ?_
  have hkept := h.callees e.1 (Table.mem_keys_iff.mpr ⟨e.2, he⟩)
  simp [hkept]

theorem Settled.release (h : Settled held st) : st.release held = (st, []) := by
  have hcallees : st.callees.filterKeys (st.keepers held).contains = st.callees :=
    Table.filterKeys_eq_self (by simpa using h.callees)
  simp only [Store.release, settleVars_eq_self h.roots, h.owes_nothing, hcallees]
  rfl

/-- A new callable that nothing holds is the only thing to be given up. -/
theorem Settled.release_newCallable (hs : st.Sound) (h : Settled held st)
    (hheld : ∀ id ∈ held, id < st.next) (arity : Arity) (origin : Origin) (callee : Callee β) :
    (st.newCallable arity origin callee).2.release held =
      (st.claim 1, if callee.context.owes then [st.next] else []) := by
  let after := (st.newCallable arity origin callee).2
  have hnew : st.next ∉ st.keepers held := by
    intro hmem
    rcases mem_keepers_iff.mp hmem with hmem | hmem | hmem
    · exact lt_irrefl _ (hheld _ hmem)
    · obtain ⟨env, e, ns, name, x, he, hfind, hid⟩ := (mem_named_iff hs).mp hmem
      exact (hs.roots_lt ((hs.knows he).there hfind)).ne hid
    · obtain ⟨x, root, hroot, hid⟩ := (mem_rootRefs_iff hs).mp hmem
      exact lt_irrefl _ ((hs.live hroot).lt_next hs _ hid)
  have hentries : after.callees.entries = st.callees.entries ++ [(st.next, callee)] :=
    Table.entries_insert_of_not_mem hs.next_not_callee
  have hroots : ∀ id ∈ after.roots.keys, id ∈ after.keepers held := h.roots
  have hkept : after.keepers held = st.keepers held := rfl
  have hcallees : after.callees.filterKeys (st.keepers held).contains = st.callees := by
    have hold := Table.filterKeys_eq_self (t := st.callees) (p := (st.keepers held).contains)
      (by simpa using h.callees)
    rw [Table.filterKeys] at hold ⊢
    rw [hentries, List.filter_append]
    simpa [hnew] using hold
  have howing : (after.callees.entries.filter fun e =>
      !(st.keepers held).contains e.1 && e.2.context.owes).map Prod.fst =
        if callee.context.owes then [st.next] else [] := by
    rw [hentries, List.filter_append, h.owes_nothing]
    cases hc : callee.context.owes <;> simp [hnew, hc]
  have hrelease : after.release held = ({ after with callees := st.callees },
      if callee.context.owes then [st.next] else []) := by
    simp only [Store.release, settleVars_eq_self hroots, hkept, hcallees, howing]
  exact hrelease

end ArityDispatch.Store

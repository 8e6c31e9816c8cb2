import ArityDispatch.Proofs.Release.Reach
import ArityDispatch.Proofs.Tables
import ArityDispatch.Proofs.Values.Collections

/-!
# Stores without dangling handles

A value is live in a store if nothing that it contains has been given up. A store is sound if
its roots are live, its environments know vars that are there, no identity is used twice, and
none is used that has not been handed out. Every operation on a sound store leaves a sound store
in which whatever was live still is: the store after it extends the store before.

The closures that owe their context back are counted on the way. Only a new callable can owe
something that was not owed before.
-/

namespace ArityDispatch

namespace Store

variable {β : Type} {st st' st'' : Store β} {v w : Value} {ds es : List Nat}

/-- What is behind a handle is in the store. Other values need nothing from it. -/
def Has (st : Store β) : Value → Prop
  | .var x => x.id ∈ st.roots.keys
  | .callable c => c.id ∈ st.callees.keys
  | _ => True

def Live (st : Store β) (v : Value) : Prop := ∀ w, v.Contains w → st.Has w

/-- The callables in the store that owe their context back. -/
def debts (st : Store β) : List Nat :=
  (st.callees.entries.filter fun e => e.2.context.owes).map Prod.fst

/-- Each name of the environment is known once, and its var is in the store. -/
structure Knows (st : Store β) (e : Environment) : Prop where
  unique : e.vars.Unique
  there : ∀ {ns name x}, e.find? ns name = some x → x.id ∈ st.roots.keys

structure Sound (st : Store β) : Prop where
  roots_unique : st.roots.Unique
  callees_unique : st.callees.Unique
  roots_lt : ∀ {id}, id ∈ st.roots.keys → id < st.next
  callees_lt : ∀ {id}, id ∈ st.callees.keys → id < st.next
  apart : ∀ {id}, id ∈ st.roots.keys → id ∉ st.callees.keys
  live : ∀ {x root}, st.root? x = some root → st.Live root
  environments_unique : st.environments.Unique
  knows : ∀ {env e}, st.environment? env = some e → st.Knows e

/-- The second store is what the first one became, with the new debts `ds`. -/
structure Extends (st st' : Store β) (ds : List Nat) : Prop where
  sound : st'.Sound
  next : st.next ≤ st'.next
  roots : st.roots.keys ⊆ st'.roots.keys
  callees : st.callees.keys ⊆ st'.callees.keys
  fresh : ∀ {id}, id ∈ st'.callees.keys → id ∈ st.callees.keys ∨ st.next ≤ id
  debts : st'.debts = st.debts ++ ds

theorem debts_subset (st : Store β) : st.debts ⊆ st.callees.keys :=
  (List.filter_sublist.map Prod.fst).subset

/-! ## Live values -/

theorem live_iff : st.Live v ↔ st.Has v ∧ ∀ w ∈ v.elements, st.Live w := by
  constructor
  · intro h
    exact ⟨h v .refl, fun w hw u hu => h u (Value.contains_iff.mpr (.inr ⟨w, hw, hu⟩))⟩
  · rintro ⟨hv, helements⟩ w hw
    rcases Value.contains_iff.mp hw with rfl | ⟨u, hu, huw⟩
    · exact hv
    · exact helements u hu w huw

theorem has_of_cell?_none (h : v.cell? = none) : st.Has v := by
  cases v with
  | var x => cases h
  | callable c => cases h
  | _ => trivial

/-- A value that is no handle is live if its elements are. -/
theorem Live.of_elements (h : v.cell? = none) (helements : ∀ w ∈ v.elements, st.Live w) :
    st.Live v :=
  live_iff.mpr ⟨has_of_cell?_none h, helements⟩

theorem live_plain (hcell : v.cell? = none) (helements : v.elements = []) : st.Live v :=
  .of_elements hcell (by simp [helements])

theorem Live.elements (h : st.Live v) : ∀ w ∈ v.elements, st.Live w := (live_iff.mp h).2

theorem live_list {id : Nat} {items : List Value} (h : ∀ w ∈ items, st.Live w) :
    st.Live (.list id items) :=
  .of_elements rfl h

theorem live_vector {id : Nat} {items : List Value} (h : ∀ w ∈ items, st.Live w) :
    st.Live (.vector id items) :=
  .of_elements rfl h

theorem live_mapOf {id : Nat} {pairs : List (Value × Value)}
    (h : ∀ e ∈ pairs, st.Live e.1 ∧ st.Live e.2) : st.Live (Value.mapOf id pairs) :=
  .of_elements rfl (Value.forall_elements_map.mpr (Value.forall_entriesOf h))

theorem live_setOf {id : Nat} {items : List Value} (h : ∀ w ∈ items, st.Live w) :
    st.Live (Value.setOf id items) :=
  .of_elements rfl (Value.forall_itemsOf h)

theorem live_var {x : Var} : st.Live (.var x) ↔ x.id ∈ st.roots.keys := by
  rw [live_iff]
  simp [Has, Value.elements]

theorem live_callable {c : Callable} : st.Live (.callable c) ↔ c.id ∈ st.callees.keys := by
  rw [live_iff]
  simp [Has, Value.elements]

theorem Live.mono (h : st.Live v) (hroots : st.roots.keys ⊆ st'.roots.keys)
    (hcallees : st.callees.keys ⊆ st'.callees.keys) : st'.Live v := by
  intro w hw
  have hhas := h w hw
  cases w with
  | var x => exact hroots hhas
  | callable c => exact hcallees hhas
  | _ => trivial

theorem Sound.live_of_reaches (hs : st.Sound) (hv : st.Live v) (h : st.Reaches v w) :
    st.Live w := by
  induction h with
  | refl => exact hv
  | tail _ hlead ih =>
    cases hlead with
    | element hw => exact ih.elements _ hw
    | root hroot => exact hs.live hroot

theorem Knows.mono {e : Environment} (h : st.Knows e) (hroots : st.roots.keys ⊆ st'.roots.keys) :
    st'.Knows e :=
  ⟨h.unique, fun hfind => hroots (h.there hfind)⟩

theorem Sound.live_named (hs : st.Sound) {env ns name : String} {e : Environment} {x : Var}
    (he : st.environment? env = some e) (hfind : e.find? ns name = some x) : st.Live (.var x) :=
  live_var.mpr ((hs.knows he).there hfind)

/-! ## How a store grows -/

namespace Extends

theorem refl (hs : st.Sound) : st.Extends st [] where
  sound := hs
  next := le_rfl
  roots := List.Subset.refl _
  callees := List.Subset.refl _
  fresh := .inl
  debts := (List.append_nil _).symm

theorem trans (h : st.Extends st' ds) (h' : st'.Extends st'' es) :
    st.Extends st'' (ds ++ es) where
  sound := h'.sound
  next := h.next.trans h'.next
  roots := List.Subset.trans h.roots h'.roots
  callees := List.Subset.trans h.callees h'.callees
  fresh hid := (h'.fresh hid).elim h.fresh fun hle => .inr (h.next.trans hle)
  debts := by rw [h'.debts, h.debts, List.append_assoc]

theorem live (h : st.Extends st' ds) (hv : st.Live v) : st'.Live v := hv.mono h.roots h.callees

end Extends

/-- Roots stay live where nothing is given up. -/
theorem Sound.live_root (hs : st.Sound) {x : Var} {root : Value} (hroot : st.root? x = some root)
    (hroots : st.roots.keys ⊆ st'.roots.keys) (hcallees : st.callees.keys ⊆ st'.callees.keys) :
    st'.Live root :=
  (hs.live hroot).mono hroots hcallees

/-- Identities are used up. -/
theorem Sound.draw (hs : st.Sound) {n : Nat} (hn : st.next ≤ n) :
    st.Extends { st with next := n } [] :=
  { Extends.refl hs with
    sound :=
      { hs with
        roots_lt := fun hid => (hs.roots_lt hid).trans_le hn
        callees_lt := fun hid => (hs.callees_lt hid).trans_le hn
        knows := fun he => (hs.knows he).mono (List.Subset.refl _) }
    next := hn }

theorem Sound.claim (hs : st.Sound) (n : Nat) : st.Extends (st.claim n) [] :=
  hs.draw (Nat.le_add_right _ n)

theorem Sound.next_not_callee (hs : st.Sound) : st.next ∉ st.callees.keys :=
  fun h => lt_irrefl _ (hs.callees_lt h)

theorem mem_roots_newVar {ns name : String} {root : Option Value} {id : Nat} :
    id ∈ (st.newVar ns name root).2.roots.keys ↔ id ∈ st.roots.keys ∨ id = st.next :=
  Table.mem_keys_insert

theorem Sound.newVar (hs : st.Sound) (ns name : String) {root : Option Value}
    (hroot : ∀ v, root = some v → st.Live v) : st.Extends (st.newVar ns name root).2 [] := by
  have hsub : st.roots.keys ⊆ (st.newVar ns name root).2.roots.keys :=
    fun _ hid => mem_roots_newVar.mpr (.inl hid)
  refine
    { sound :=
        { roots_unique := hs.roots_unique.insert _ _
          callees_unique := hs.callees_unique
          roots_lt := fun {id} hid => ?_
          callees_lt := fun hid => Nat.lt_succ_of_lt (hs.callees_lt hid)
          apart := fun {id} hid => ?_
          live := fun {x v} hv => ?_
          environments_unique := hs.environments_unique
          knows := fun he => (hs.knows he).mono hsub }
      next := Nat.le_succ _
      roots := hsub
      callees := List.Subset.refl _
      fresh := .inl
      debts := (List.append_nil _).symm }
  · rcases mem_roots_newVar.mp hid with hid | rfl
    · exact Nat.lt_succ_of_lt (hs.roots_lt hid)
    · exact Nat.lt_succ_self _
  · rcases mem_roots_newVar.mp hid with hid | rfl
    · exact hs.apart hid
    · exact hs.next_not_callee
  · rw [root?, Store.newVar, Table.get?_insert] at hv
    split_ifs at hv with hx
    · exact (hroot v hv).mono hsub (List.Subset.refl _)
    · exact hs.live_root (x := x) hv hsub (List.Subset.refl _)

theorem live_newVar (st : Store β) (ns name : String) (root : Option Value) :
    (st.newVar ns name root).2.Live (.var (st.newVar ns name root).1) :=
  live_var.mpr (mem_roots_newVar.mpr (.inr rfl))

theorem Sound.bind (hs : st.Sound) (x : Var) (hv : st.Live v) : st.Extends (st.bind x v) [] := by
  have hkeys : (st.bind x v).roots.keys = st.roots.keys := Table.keys_update ..
  have hsub : st.roots.keys ⊆ (st.bind x v).roots.keys := by simp [hkeys]
  refine
    { Extends.refl hs with
      sound :=
        { hs with
          roots_unique := hs.roots_unique.update _ _
          roots_lt := fun hid => hs.roots_lt (hkeys ▸ hid)
          apart := fun hid => hs.apart (hkeys ▸ hid)
          live := fun {y root} hroot => ?_
          knows := fun he => (hs.knows he).mono hsub }
      roots := hsub }
  have hlive : st.Live root := by
    rw [root?, Store.bind, Table.get?_update] at hroot
    split_ifs at hroot
    · cases hold : st.roots.get? y.id with
      | none => simp [hold] at hroot
      | some old =>
        simp only [hold, Option.map_some, Option.join_some, Option.some.injEq] at hroot
        exact hroot ▸ hv
    · exact hs.live (x := y) hroot
  exact hlive.mono hsub (List.Subset.refl _)

theorem mem_callees_newCallable {arity : Arity} {origin : Origin} {callee : Callee β} {id : Nat} :
    id ∈ (st.newCallable arity origin callee).2.callees.keys ↔
      id ∈ st.callees.keys ∨ id = st.next :=
  Table.mem_keys_insert

/-- A new callable owes what its context owes. -/
theorem Sound.newCallable (hs : st.Sound) (arity : Arity) (origin : Origin) (callee : Callee β) :
    st.Extends (st.newCallable arity origin callee).2
      (if callee.context.owes then [st.next] else []) := by
  have hsub : st.callees.keys ⊆ (st.newCallable arity origin callee).2.callees.keys :=
    fun _ hid => mem_callees_newCallable.mpr (.inl hid)
  refine
    { sound :=
        { roots_unique := hs.roots_unique
          callees_unique := hs.callees_unique.insert _ _
          roots_lt := fun hid => Nat.lt_succ_of_lt (hs.roots_lt hid)
          callees_lt := fun {id} hid => ?_
          apart := fun {id} hroot hid => ?_
          live := fun {x v} hv => hs.live_root (x := x) hv (List.Subset.refl _) hsub
          environments_unique := hs.environments_unique
          knows := fun he => (hs.knows he).mono (List.Subset.refl _) }
      next := Nat.le_succ _
      roots := List.Subset.refl _
      callees := hsub
      fresh := fun hid => (mem_callees_newCallable.mp hid).imp_right Eq.ge
      debts := ?_ }
  · rcases mem_callees_newCallable.mp hid with hid | rfl
    · exact Nat.lt_succ_of_lt (hs.callees_lt hid)
    · exact Nat.lt_succ_self _
  · rcases mem_callees_newCallable.mp hid with hid | rfl
    · exact hs.apart hroot hid
    · exact lt_irrefl _ (hs.roots_lt hroot)
  · simp only [Store.debts, Store.newCallable, Store.claim,
      Table.entries_insert_of_not_mem hs.next_not_callee, List.filter_append, List.map_append]
    cases hc : callee.context.owes <;> simp [hc]

theorem live_newCallable (st : Store β) (arity : Arity) (origin : Origin) (callee : Callee β) :
    (st.newCallable arity origin callee).2.Live
      (.callable (st.newCallable arity origin callee).1) :=
  live_callable.mpr (mem_callees_newCallable.mpr (.inr rfl))

theorem debts_update (st : Store β) (id : Nat) {f : Callee β → Callee β}
    (hf : ∀ d, (f d).context = d.context) :
    debts { st with callees := st.callees.update id f } = st.debts := by
  have howes : ((fun e : Nat × Callee β => e.2.context.owes) ∘
      fun e => if e.1 = id then (e.1, f e.2) else e) = fun e => e.2.context.owes := by
    funext e
    by_cases he : e.1 = id <;> simp [he, hf]
  simp only [debts, Table.update, List.filter_map, List.map_map, howes]
  refine List.map_congr_left fun e _ => ?_
  by_cases he : e.1 = id <;> simp [he]

/-- Entries are installed behind a handle without a change to its context. -/
theorem Sound.install (hs : st.Sound) {c : Callable} {k : Nat} {body : β}
    (h : st.install c k body = .ok st') : st.Extends st' [] := by
  unfold Store.install at h
  split at h
  · cases h
  split at h
  · cases h
  next entries _ =>
  obtain rfl := Except.ok.inj h
  let after : Store β := { st with callees := st.callees.update c.id fun d => { d with entries } }
  have hkeys : after.callees.keys = st.callees.keys := Table.keys_update ..
  have hsub : st.callees.keys ⊆ after.callees.keys := by simp [hkeys]
  have hdebts : after.debts = st.debts := by
    refine debts_update st c.id ?_
    exact fun _ => rfl
  refine
    { Extends.refl hs with
      sound :=
        { hs with
          callees_unique := hs.callees_unique.update _ _
          callees_lt := fun hid => hs.callees_lt (hkeys ▸ hid)
          apart := fun hroot hid => hs.apart hroot (hkeys ▸ hid)
          live := fun {x v} hv => hs.live_root (x := x) hv (List.Subset.refl _) hsub
          knows := fun he => (hs.knows he).mono (List.Subset.refl _) }
      callees := hsub
      fresh := fun hid => .inl (hkeys ▸ hid)
      debts := hdebts.trans (List.append_nil _).symm }

/-! ## Environments -/

theorem Sound.withEnvironments (hs : st.Sound) {environments : Table String Environment}
    (hunique : environments.Unique)
    (hknows : ∀ {env e}, environments.get? env = some e → st.Knows e) :
    st.Extends { st with environments } [] :=
  { Extends.refl hs with
    sound :=
      { hs with
        live := fun {x _} hroot =>
          hs.live_root (x := x) hroot (List.Subset.refl _) (List.Subset.refl _)
        environments_unique := hunique
        knows := fun he => (hknows he).mono (List.Subset.refl _) } }

theorem Sound.setEnvironment (hs : st.Sound) (env : String) {e : Environment} (he : st.Knows e) :
    st.Extends (st.setEnvironment env e) [] := by
  refine hs.withEnvironments (hs.environments_unique.insert _ _) fun {name d} hd => ?_
  rw [Table.get?_insert] at hd
  split_ifs at hd
  · exact Option.some.inj hd ▸ he
  · exact hs.knows hd

theorem Sound.freeEnvironment (hs : st.Sound) (env : String) :
    st.Extends (st.freeEnvironment env) [] := by
  refine hs.withEnvironments (hs.environments_unique.erase _) fun {name d} hd => ?_
  rw [Table.get?_erase] at hd
  split_ifs at hd
  exact hs.knows hd

/-- What is done to the slot for errors does not matter. -/
theorem Sound.updateEnvironment (hs : st.Sound) (env : String) {f : Environment → Environment}
    (hf : ∀ e, (f e).vars = e.vars) :
    st.Extends { st with environments := st.environments.update env f } [] := by
  refine hs.withEnvironments (hs.environments_unique.update _ _) fun {name d} hd => ?_
  rw [Table.get?_update] at hd
  split_ifs at hd
  · obtain ⟨e, he, rfl⟩ := Option.map_eq_some_iff.mp hd
    have hknows := hs.knows he
    exact ⟨(hf e).symm ▸ hknows.unique, fun {ns name x} hfind => hknows.there
      (show e.find? ns name = some x by rw [Environment.find?, ← hf e]; exact hfind)⟩
  · exact hs.knows hd

theorem Sound.record (hs : st.Sound) (env : String) (error : CallError) :
    st.Extends (st.record env error) [] :=
  hs.updateEnvironment env fun _ => rfl

theorem Sound.clearError (hs : st.Sound) (env : String) : st.Extends (st.clearError env) [] :=
  hs.updateEnvironment env fun _ => rfl

/-- An interned name has a var that stays as long as the environment knows it. -/
theorem Sound.intern (hs : st.Sound) {env : String} {e : Environment}
    (he : st.environment? env = some e) (ns name : String) :
    let made := e.intern st ns name
    st.Extends (made.2.2.setEnvironment env made.2.1) [] ∧
      (made.2.2.setEnvironment env made.2.1).Live (.var made.1) := by
  unfold Environment.intern
  cases hfind : e.find? ns name with
  | some v =>
    have hset := hs.setEnvironment env (hs.knows he)
    exact ⟨hset, hset.live (hs.live_named he hfind)⟩
  | none =>
    have hnew : st.Extends (st.newVar ns name none).2 [] := hs.newVar ns name nofun
    have hlive := st.live_newVar ns name none
    have hknows := (hs.knows he).mono hnew.roots
    have hset := hnew.sound.setEnvironment env
      (e := { e with vars := e.vars.insert (ns, name) (st.newVar ns name none).1 })
      ⟨hknows.unique.insert _ _, fun {n m x} hx => by
        rw [Environment.find?, Table.get?_insert] at hx
        split_ifs at hx
        · exact Option.some.inj hx ▸ live_var.mp hlive
        · exact hknows.there hx⟩
    exact ⟨hnew.trans hset, hset.live hlive⟩

end Store

end ArityDispatch

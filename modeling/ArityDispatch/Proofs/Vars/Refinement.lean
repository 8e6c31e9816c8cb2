import ArityDispatch.Proofs.Tables
import ArityDispatch.Proofs.Texts
import ArityDispatch.Proofs.Vars.Sessions

/-!
# The var store refines a plain map

A host and a plain map that have run the same program stand in the relation `Refines`: each
cell of the map that is in use has one var, different cells have vars of different identity,
and the root behind the var is the value at the cell. One operation keeps this and gives the
same reply on both sides. So every program gets the same replies from both, and the handles
that it holds are those of the same cells: `vars_refine_plain_map`.
-/

namespace ArityDispatch

section
variable {β : Type}

theorem update_eq_some_iff {α γ : Type} [DecidableEq α] {f : α → Option γ} {a b : α} {x y : γ} :
    Function.update f a (some x) b = some y ↔ b = a ∧ x = y ∨ b ≠ a ∧ f b = some y := by
  by_cases h : b = a
  · subst h
    simp
  · simp [h]

/-- A store has a var in each place that a cell has, with the roots of a plain map. -/
structure Placed (st : Store β) (roots : VarCell → Option Value)
    (place : VarCell → Option Var) : Prop where
  named : ∀ {c v}, place c = some v → v.ns = c.ns ∧ v.name = c.name
  distinct : ∀ {c d v w}, place c = some v → place d = some w → v.id = w.id → c = d
  below : ∀ {c v}, place c = some v → v.id < st.next
  root : ∀ {c v}, place c = some v → st.roots.get? v.id = some (roots c)
  free : ∀ {c}, place c = none → roots c = none

theorem Placed.withEnvironments {st : Store β} {roots : VarCell → Option Value}
    {place : VarCell → Option Var} (h : Placed st roots place)
    (environments : Table String Environment) : Placed { st with environments } roots place :=
  ⟨h.named, h.distinct, h.below, h.root, h.free⟩

/-- The var that an environment knows by a name. -/
def VarHost.find? (h : VarHost β) (env ns name : String) : Option Var :=
  (h.store.environment? env).bind fun e => e.find? ns name

/-- A host stands for a plain map. -/
structure Refines (spaces : String → Option String) (h : VarHost β) (p : PlainVars)
    (place : VarCell → Option Var) : Prop where
  placed : Placed h.store p.roots place
  interned : ∀ env ns name, place (.interned env ns name) = h.find? env ns name
  names : ∀ env ns name, (env, ns, name) ∈ p.names ↔ (h.find? env ns name).isSome
  made : ∀ {n ns name v}, place (.separate n ns name) = some v → n < p.made
  handles : h.handles.map some = p.handles.map place
  spaces : ∀ env, (h.store.environment? env).map (·.settings.ns) = spaces env
  unique : ∀ {env e}, h.store.environment? env = some e → e.vars.Unique

theorem VarHost.environment?_start (settings : String → Settings) (names : List String)
    (env : String) : (VarHost.start settings names : VarHost β).store.environment? env =
      if env ∈ names then some { settings := settings env } else none := by
  induction names with
  | nil => rfl
  | cons name names ih =>
    have hput : (VarHost.start settings (name :: names) : VarHost β).store =
        (VarHost.start settings names).store.setEnvironment name
          { settings := settings name } := rfl
    rw [hput, Store.environment?_setEnvironment, ih]
    by_cases hname : env = name <;> simp [hname]

theorem VarHost.store_start (settings : String → Settings) (names : List String) :
    ∃ environments, (VarHost.start settings names : VarHost β).store = { environments } := by
  induction names with
  | nil => exact ⟨{}, rfl⟩
  | cons name names ih =>
    obtain ⟨environments, h⟩ := ih
    refine ⟨environments.insert name { settings := settings name }, ?_⟩
    have hput : (VarHost.start settings (name :: names) : VarHost β).store =
        (VarHost.start settings names).store.setEnvironment name
          { settings := settings name } := rfl
    rw [hput, h]
    rfl

/-- The default namespaces of the environments that there are. -/
def defaultSpaces (settings : String → Settings) (names : List String) (env : String) :
    Option String :=
  if env ∈ names then some (settings env).ns else none

namespace Refines

variable {spaces : String → Option String} {h : VarHost β} {p : PlainVars}
  {place : VarCell → Option Var}

theorem start (settings : String → Settings) (names : List String) :
    Refines (defaultSpaces settings names) (VarHost.start settings names : VarHost β) {}
      fun _ => none where
  placed := by
    obtain ⟨environments, hstore⟩ := VarHost.store_start (β := β) settings names
    rw [hstore]
    exact ⟨nofun, nofun, nofun, nofun, fun _ => rfl⟩
  interned env ns name := by
    rw [VarHost.find?, VarHost.environment?_start]
    split_ifs <;> rfl
  names env ns name := by
    rw [VarHost.find?, VarHost.environment?_start]
    split_ifs <;> simp [Environment.find?]
  made := nofun
  handles := rfl
  spaces env := by
    rw [VarHost.environment?_start, defaultSpaces]
    split_ifs <;> rfl
  unique {env e} he := by
    rw [VarHost.environment?_start] at he
    split_ifs at he
    cases he
    exact Table.unique_empty

theorem give (hr : Refines spaces h p place) {c : VarCell} {v : Var} (hc : place c = some v) :
    Refines spaces (h.give v) (p.give c) place :=
  { hr with handles := by simp [VarHost.give, PlainVars.give, hr.handles, hc] }

theorem handle (hr : Refines spaces h p place) (i : Nat) :
    h.handles[i]? = none ∧ p.handles[i]? = none ∨
      ∃ v c, h.handles[i]? = some v ∧ p.handles[i]? = some c ∧ place c = some v := by
  have hi : (h.handles.map some)[i]? = (p.handles.map place)[i]? := by rw [hr.handles]
  rw [List.getElem?_map, List.getElem?_map] at hi
  cases hv : h.handles[i]? with
  | none =>
    rw [hv, Option.map_none] at hi
    exact .inl ⟨rfl, Option.map_eq_none_iff.mp hi.symm⟩
  | some v =>
    rw [hv, Option.map_some] at hi
    obtain ⟨c, hc, hplace⟩ := Option.map_eq_some_iff.mp hi.symm
    exact .inr ⟨v, c, rfl, hc, hplace⟩

theorem pointer (hr : Refines spaces h p place) (handle : Option Nat) :
    h.pointer handle = none ∧ p.pointer handle = none ∨
      h.pointer handle = some none ∧ p.pointer handle = some none ∨
      ∃ v c, h.pointer handle = some (some (.var v)) ∧ p.pointer handle = some (some c) ∧
        place c = some v := by
  cases handle with
  | none => exact .inr (.inl ⟨rfl, rfl⟩)
  | some i =>
    rcases hr.handle i with ⟨hv, hc⟩ | ⟨v, c, hv, hc, hplace⟩
    · exact .inl ⟨by simp [VarHost.pointer, hv], by simp [PlainVars.pointer, hc]⟩
    · exact .inr (.inr
        ⟨v, c, by simp [VarHost.pointer, hv], by simp [PlainVars.pointer, hc], hplace⟩)

/-- Both sides have the same environments. -/
theorem environment (hr : Refines spaces h p place) (env : String) :
    h.store.environment? env = none ∧ spaces env = none ∨
      ∃ e, h.store.environment? env = some e ∧ spaces env = some e.settings.ns := by
  rw [← hr.spaces]
  cases h.store.environment? env with
  | none => exact .inl ⟨rfl, rfl⟩
  | some e => exact .inr ⟨e, rfl, rfl⟩

theorem deref (hr : Refines spaces h p place) {c : VarCell} {v : Var} (hc : place c = some v) :
    h.store.deref v = p.deref c := by
  have hroot : h.store.root? v = p.roots c := by
    rw [Store.root?, hr.placed.root hc, Option.join_some]
  obtain ⟨hns, hname⟩ := hr.placed.named hc
  cases hvalue : p.roots c with
  | none => simp only [Store.deref, PlainVars.deref, hroot, hvalue, Var.qualified, hns, hname]
  | some value => simp only [Store.deref, PlainVars.deref, hroot, hvalue]

theorem id_eq_iff (hr : Refines spaces h p place) (i j : Nat) :
    (h.handles[i]?).map Var.id = (h.handles[j]?).map Var.id ↔ p.handles[i]? = p.handles[j]? := by
  rcases hr.handle i with ⟨hv, hc⟩ | ⟨v, c, hv, hc, hplace⟩ <;>
    rcases hr.handle j with ⟨hw, hd⟩ | ⟨w, d, hw, hd, hplace'⟩
  · simp [hv, hc, hw, hd]
  · simp [hv, hc, hw, hd]
  · simp [hv, hc, hw, hd]
  · simp only [hv, hc, hw, hd, Option.map_some, Option.some.injEq]
    constructor
    · exact hr.placed.distinct hplace hplace'
    · rintro rfl
      rw [Option.some.inj (hplace.symm.trans hplace')]

theorem handle_names (hr : Refines spaces h p place) :
    h.handles.map (fun v => (v.ns, v.name)) = p.handles.map fun c => (c.ns, c.name) := by
  refine List.ext_getElem? fun i => ?_
  rw [List.getElem?_map, List.getElem?_map]
  rcases hr.handle i with ⟨hv, hc⟩ | ⟨v, c, hv, hc, hplace⟩
  · simp [hv, hc]
  · obtain ⟨hns, hname⟩ := hr.placed.named hplace
    simp [hv, hc, hns, hname]

end Refines

namespace Placed

variable {st : Store β} {roots : VarCell → Option Value} {place : VarCell → Option Var}

/-- A new var goes to a free cell. -/
theorem new (h : Placed st roots place) {c : VarCell} (hfree : place c = none)
    (root : Option Value) :
    Placed (st.newVar c.ns c.name root).2 (Function.update roots c root)
      (Function.update place c (some (st.newVar c.ns c.name root).1)) where
  named {d v} hd := by
    rcases update_eq_some_iff.mp hd with ⟨rfl, rfl⟩ | ⟨-, hd⟩
    · exact ⟨rfl, rfl⟩
    · exact h.named hd
  distinct {d e v w} hd he hid := by
    rcases update_eq_some_iff.mp hd with ⟨rfl, rfl⟩ | ⟨-, hd'⟩ <;>
      rcases update_eq_some_iff.mp he with ⟨rfl, rfl⟩ | ⟨-, he'⟩
    · rfl
    · exact absurd hid (h.below he').ne'
    · exact absurd hid (h.below hd').ne
    · exact h.distinct hd' he' hid
  below {d v} hd := by
    rcases update_eq_some_iff.mp hd with ⟨rfl, rfl⟩ | ⟨-, hd⟩
    · exact Nat.lt_succ_self _
    · exact Nat.lt_succ_of_lt (h.below hd)
  root {d v} hd := by
    simp only [Store.newVar, Store.claim, Table.get?_insert]
    rcases update_eq_some_iff.mp hd with ⟨rfl, rfl⟩ | ⟨hdc, hd⟩
    · rw [Function.update_self]
      exact if_pos rfl
    · rw [Function.update_of_ne hdc, if_neg (h.below hd).ne, h.root hd]
  free {d} hd := by
    by_cases hdc : d = c
    · subst hdc
      simp at hd
    · rw [Function.update_of_ne hdc] at hd ⊢
      exact h.free hd

theorem bind (h : Placed st roots place) {c : VarCell} {v : Var} (hc : place c = some v)
    (value : Value) :
    Placed (st.bind v value) (Function.update roots c (some value)) place where
  named := h.named
  distinct := h.distinct
  below := h.below
  root {d w} hd := by
    simp only [Store.bind, Table.get?_update, h.root hd]
    by_cases hdc : d = c
    · subst hdc
      obtain rfl := Option.some.inj (hc.symm.trans hd)
      simp
    · have hid : w.id ≠ v.id := fun hid => hdc (h.distinct hd hc hid)
      rw [if_neg hid, Function.update_of_ne hdc]
  free {d} hd := by
    have hdc : d ≠ c := by
      rintro rfl
      cases hc.symm.trans hd
    rw [Function.update_of_ne hdc, h.free hd]

end Placed

namespace Refines

variable {spaces : String → Option String} {h : VarHost β} {p : PlainVars}
  {place : VarCell → Option Var}

/-- Of an environment only its names and its settings matter to vars. -/
theorem withEnvironments (hr : Refines spaces h p place) {environments : Table String Environment}
    (hsame : ∀ env, (environments.get? env).map (fun e => (e.vars, e.settings)) =
      (h.store.environment? env).map fun e => (e.vars, e.settings)) :
    Refines spaces { h with store := { h.store with environments } } p place := by
  let after : VarHost β := { h with store := { h.store with environments } }
  have hfind : ∀ env ns name, after.find? env ns name = h.find? env ns name := by
    intro env ns name
    have hvars := congrArg (Option.map Prod.fst) (hsame env)
    simp only [Option.map_map, Function.comp_def] at hvars
    -- a lookup reads the names alone
    have hread : ∀ found : Option Environment, found.bind (·.find? ns name) =
        (found.map fun e => e.vars).bind (·.get? (ns, name)) := by
      rintro (_ | e) <;> rfl
    rw [VarHost.find?, VarHost.find?, hread, hread, ← hvars]
    rfl
  exact
    { placed := hr.placed.withEnvironments environments
      interned := fun env ns name => by rw [hr.interned, ← hfind]
      names := fun env ns name => by rw [hr.names, ← hfind]
      made := hr.made
      handles := hr.handles
      spaces := fun env => by
        have hsettings := congrArg (Option.map fun e => e.2.ns) (hsame env)
        simp only [Option.map_map, Function.comp_def] at hsettings
        exact hsettings.trans (hr.spaces env)
      unique := fun {env e} he => by
        have hknown := hsame env
        have hget : environments.get? env = some e := he
        rw [hget, Option.map_some] at hknown
        obtain ⟨d, hd, heq⟩ := Option.map_eq_some_iff.mp hknown.symm
        exact (Prod.mk.inj heq).1 ▸ hr.unique hd }

/-- What an operation leaves in the slot for errors does not matter to vars. -/
theorem record (hr : Refines spaces h p place) (env : String) (err : CallError) :
    Refines spaces { h with store := h.store.record env err } p place := by
  refine hr.withEnvironments fun name => ?_
  rw [Table.get?_update]
  split_ifs
  · rw [Option.map_map]
    rfl
  · rfl

theorem finish (hr : Refines spaces h p place) (env : String) (result : Except CallError Value) :
    Refines spaces { h with store := (Boundary.finish env (result, h.store)).2 } p place := by
  cases result with
  | ok v => exact hr
  | error e => exact hr.record env e

theorem bind (hr : Refines spaces h p place) {c : VarCell} {v : Var} (hc : place c = some v)
    (value : Value) :
    Refines spaces { h with store := h.store.bind v value } (p.bind c (some value)) place :=
  { hr with placed := hr.placed.bind hc value }

/-- A free cell is the cell of no handle. -/
theorem map_update (hr : Refines spaces h p place) {c : VarCell} (hfree : place c = none)
    (v : Option Var) : p.handles.map (Function.update place c v) = p.handles.map place := by
  refine List.map_congr_left fun d hd => Function.update_of_ne ?_ ..
  rintro rfl
  have hmem : place d ∈ h.handles.map some := hr.handles ▸ List.mem_map_of_mem hd
  simp [hfree] at hmem

theorem make (hr : Refines spaces h p place) (ns name : String) (root : Option Value) :
    let host : VarHost β := { h with store := (h.store.newVar ns name root).2 }
    let c : VarCell := .separate p.made ns name
    ∃ place', Refines spaces (host.give (h.store.newVar ns name root).1)
      ({ p.bind c root with made := p.made + 1 }.give c) place' := by
  intro host c
  have hfree : place c = none := by
    cases hv : place c with
    | none => rfl
    | some v => exact absurd (hr.made hv) (lt_irrefl _)
  let v := (h.store.newVar ns name root).1
  let plain : PlainVars := { p.bind c root with made := p.made + 1 }
  have hnew : Refines spaces host plain (Function.update place c (some v)) :=
    { placed := hr.placed.new hfree root
      interned := fun env ns' name' => by
        rw [Function.update_of_ne (by simp [c]), hr.interned]
        rfl
      names := hr.names
      made := fun {n ns' name' w} hw => by
        rcases update_eq_some_iff.mp hw with ⟨hc, -⟩ | ⟨-, hw⟩
        · obtain ⟨rfl, -, -⟩ := VarCell.separate.inj hc
          exact Nat.lt_succ_self _
        · exact Nat.lt_succ_of_lt (hr.made hw)
      handles := hr.handles.trans (hr.map_update hfree _).symm
      spaces := hr.spaces
      unique := hr.unique }
  exact ⟨_, hnew.give (Function.update_self ..)⟩

theorem intern_new (hr : Refines spaces h p place) {env ns name : String} {e : Environment}
    (he : h.store.environment? env = some e) (hfind : e.find? ns name = none) :
    let v := (h.store.newVar ns name none).1
    let known : Environment := { e with vars := e.vars.insert (ns, name) v }
    let host : VarHost β :=
      { h with store := (h.store.newVar ns name none).2.setEnvironment env known }
    Refines spaces (host.give v) (p.intern env ns name)
      (Function.update place (.interned env ns name) (some v)) := by
  intro v known host
  let c : VarCell := .interned env ns name
  have hfree : place c = none := by rw [hr.interned, VarHost.find?, he, Option.bind_some, hfind]
  have hroots : Function.update p.roots c none = p.roots :=
    Function.update_eq_self_iff.mpr (hr.placed.free hfree).symm
  have henv : ∀ env', host.store.environment? env' =
      if env' = env then some known else h.store.environment? env' := fun env' =>
    (h.store.newVar ns name none).2.environment?_setEnvironment env env' known
  have hlookup : ∀ env' ns' name', host.find? env' ns' name' =
      if (env', ns', name') = (env, ns, name) then some v else h.find? env' ns' name' := by
    intro env' ns' name'
    rw [VarHost.find?, henv]
    by_cases hname : env' = env
    · subst hname
      simp [VarHost.find?, Environment.find?, known, he, Table.get?_insert]
    · simp [VarHost.find?, hname]
  have hnew : Refines spaces host
      { p with names := insert (env, ns, name) p.names } (Function.update place c (some v)) :=
    { placed := (hroots ▸ hr.placed.new hfree none).withEnvironments _
      interned := fun env' ns' name' => by
        rw [hlookup]
        by_cases hkey : (env', ns', name') = (env, ns, name)
        · cases hkey
          simp [c]
        · have hc : VarCell.interned env' ns' name' ≠ c := by simpa [c] using hkey
          rw [if_neg hkey, Function.update_of_ne hc, hr.interned]
      names := fun env' ns' name' => by
        rw [hlookup, Finset.mem_insert, hr.names]
        by_cases hkey : (env', ns', name') = (env, ns, name) <;> simp [hkey]
      made := fun {n ns' name' w} hw => by
        rcases update_eq_some_iff.mp hw with ⟨hc, -⟩ | ⟨-, hw⟩
        · simp [c] at hc
        · exact hr.made hw
      handles := hr.handles.trans (hr.map_update hfree _).symm
      spaces := fun env' => by
        rw [henv, ← hr.spaces]
        split_ifs with hname
        · rw [hname, he]
          rfl
        · rfl
      unique := fun {env' e'} he' => by
        rw [henv] at he'
        split_ifs at he' with hname
        · cases he'
          exact (hr.unique he).insert _ _
        · exact hr.unique he' }
  exact hnew.give (Function.update_self ..)

/-- Interning gives the var of the name, which is a new one only if there was none. -/
theorem intern (hr : Refines spaces h p place) {env : String} {e : Environment}
    (he : h.store.environment? env = some e) (ns name : String) :
    let made := e.intern h.store ns name
    let host : VarHost β := { h with store := made.2.2.setEnvironment env made.2.1 }
    ∃ place', Refines spaces (host.give made.1) (p.intern env ns name) place' := by
  cases hfind : e.find? ns name with
  | none =>
    simp only [Environment.intern, hfind]
    exact ⟨_, hr.intern_new he hfind⟩
  | some v =>
    have hknown : h.find? env ns name = some v := by rw [VarHost.find?, he, Option.bind_some, hfind]
    have hname : insert (env, ns, name) p.names = p.names :=
      Finset.insert_eq_self.mpr ((hr.names env ns name).mpr (by simp [hknown]))
    have hsame : Refines spaces { h with store := h.store.setEnvironment env e }
        { p with names := insert (env, ns, name) p.names } place := by
      rw [hname]
      refine hr.withEnvironments fun env' => ?_
      rw [Table.get?_insert]
      split_ifs with heq
      · rw [heq, he]
      · rfl
    simp only [Environment.intern, hfind]
    exact ⟨place, hsame.give ((hr.interned env ns name).trans hknown)⟩

end Refines

/-! ## Programs -/

section
variable {spell : List UInt8 → Option String} {spaces : String → Option String} {h : VarHost β}
  {p : PlainVars} {place : VarCell → Option Var}

/-- The boundary reads a text as the bytes spell it. -/
theorem requireText_eq (hspell : ∀ bytes text, spell bytes = some text ↔ Text.Spells bytes text)
    (bytes : List UInt8) (parameter : String) :
    Boundary.requireText (some bytes) parameter =
      match spell bytes with
      | some text => .ok text
      | none => .error .invalidUtf8 := by
  cases htext : spell bytes with
  | some text => exact Boundary.requireText_spelled ((hspell bytes text).mp htext) parameter
  | none =>
    refine Boundary.requireText_bad ?_ parameter
    rintro ⟨text, hspells⟩
    cases htext.symm.trans ((hspell bytes text).mpr hspells)

/-- A name comes across the boundary as the plain map is told. -/
theorem Refines.internText (hr : Refines spaces h p place)
    (hspell : ∀ bytes text, spell bytes = some text ↔ Text.Spells bytes text) (env : String)
    (ns name : Option (List UInt8)) :
    (h.step (.internText env ns name)).1 = (p.step spell spaces (.internText env ns name)).1 ∧
      ∃ place', Refines spaces (h.step (.internText env ns name)).2
        (p.step spell spaces (.internText env ns name)).2 place' := by
  rcases hr.environment env with ⟨he, hspace⟩ | ⟨e, he, hspace⟩
  · simp only [VarHost.step, PlainVars.step, he, hspace]
    exact ⟨trivial, place, hr⟩
  · cases name with
    | none =>
      simp only [VarHost.step, PlainVars.step, he, hspace, Boundary.internVar]
      exact ⟨rfl, place, hr.finish env _⟩
    | some bytes =>
      have hname := requireText_eq hspell bytes "name"
      cases htext : spell bytes with
      | none =>
        simp only [VarHost.step, PlainVars.step, he, hspace, Boundary.internVar, hname, htext]
        exact ⟨trivial, place, hr.finish env _⟩
      | some text =>
        cases ns with
        | none =>
          simp only [VarHost.step, PlainVars.step, he, hspace, Boundary.internVar, hname, htext]
          exact ⟨rfl, hr.intern he e.settings.ns text⟩
        | some bytes' =>
          have hns := requireText_eq hspell bytes' "namespace"
          cases hspelled : spell bytes' with
          | none =>
            simp only [VarHost.step, PlainVars.step, he, hspace, Boundary.internVar, hname, htext,
              Option.mapM_some, hns, hspelled]
            exact ⟨rfl, place, hr.finish env _⟩
          | some space =>
            simp only [VarHost.step, PlainVars.step, he, hspace, Boundary.internVar, hname, htext,
              Option.mapM_some, hns, hspelled]
            exact ⟨rfl, hr.intern he space text⟩

/-- One operation gives the same reply on both sides. -/
theorem Refines.step (hr : Refines spaces h p place)
    (hspell : ∀ bytes text, spell bytes = some text ↔ Text.Spells bytes text)
    (op : VarOperation) :
    (h.step op).1 = (p.step spell spaces op).1 ∧
      ∃ place', Refines spaces (h.step op).2 (p.step spell spaces op).2 place' := by
  cases op with
  | intern env ns name =>
    rcases hr.environment env with ⟨he, hspace⟩ | ⟨e, he, hspace⟩
    · simp only [VarHost.step, PlainVars.step, he, hspace]
      exact ⟨trivial, place, hr⟩
    · simp only [VarHost.step, PlainVars.step, he, hspace]
      exact ⟨trivial, hr.intern he (ns.getD e.settings.ns) name⟩
  | internText env ns name => exact hr.internText hspell env ns name
  | find env ns name =>
    have hnames := hr.names env ns name
    have hplace := hr.interned env ns name
    rcases hr.environment env with ⟨he, hspace⟩ | ⟨e, he, hspace⟩
    · simp only [VarHost.step, PlainVars.step, he, hspace, if_true]
      exact ⟨trivial, place, hr⟩
    · rw [VarHost.find?, he, Option.bind_some] at hnames hplace
      cases hfind : e.find? ns name with
      | none =>
        have hno : (env, ns, name) ∉ p.names := by simp [hnames, hfind]
        simp only [VarHost.step, PlainVars.step, he, hspace, hfind, if_neg hno, reduceCtorEq,
          if_false]
        exact ⟨trivial, place, hr⟩
      | some v =>
        have hyes : (env, ns, name) ∈ p.names := by simp [hnames, hfind]
        simp only [VarHost.step, PlainVars.step, he, hspace, hfind, if_pos hyes, reduceCtorEq,
          if_false]
        exact ⟨trivial, place, hr.give (hplace.trans hfind)⟩
  | make ns name root => exact ⟨rfl, hr.make ns name root⟩
  | copy i =>
    rcases hr.handle i with ⟨hv, hc⟩ | ⟨v, c, hv, hc, hplace⟩
    · simp only [VarHost.step, PlainVars.step, hv, hc]
      exact ⟨trivial, place, hr⟩
    · simp only [VarHost.step, PlainVars.step, hv, hc]
      exact ⟨trivial, place, hr.give hplace⟩
  | bind i value =>
    rcases hr.handle i with ⟨hv, hc⟩ | ⟨v, c, hv, hc, hplace⟩
    · simp only [VarHost.step, PlainVars.step, hv, hc]
      exact ⟨trivial, place, hr⟩
    · simp only [VarHost.step, PlainVars.step, hv, hc]
      exact ⟨trivial, place, hr.bind hplace value⟩
  | bindPointer handle value =>
    rcases hr.pointer handle with ⟨hv, hc⟩ | ⟨hv, hc⟩ | ⟨v, c, hv, hc, hplace⟩
    · simp only [VarHost.step, PlainVars.step, hv, hc]
      exact ⟨trivial, place, hr⟩
    · simp only [VarHost.step, PlainVars.step, Boundary.bindRoot, hv, hc]
      exact ⟨trivial, place, hr⟩
    · cases value with
      | none =>
        simp only [VarHost.step, PlainVars.step, Boundary.bindRoot, hv, hc]
        exact ⟨trivial, place, hr⟩
      | some value =>
        simp only [VarHost.step, PlainVars.step, Boundary.bindRoot, hv, hc]
        exact ⟨trivial, place, hr.bind hplace value⟩
  | deref i =>
    rcases hr.handle i with ⟨hv, hc⟩ | ⟨v, c, hv, hc, hplace⟩
    · simp only [VarHost.step, PlainVars.step, hv, hc]
      exact ⟨trivial, place, hr⟩
    · simp only [VarHost.step, PlainVars.step, hv, hc, hr.deref hplace]
      exact ⟨trivial, place, hr⟩
  | derefPointer env handle =>
    rcases hr.pointer handle with ⟨hv, hc⟩ | ⟨hv, hc⟩ | ⟨v, c, hv, hc, hplace⟩
    · simp only [VarHost.step, PlainVars.step, hv, hc]
      exact ⟨trivial, place, hr⟩
    · rcases hr.environment env with ⟨he, hspace⟩ | ⟨e, he, hspace⟩
      · simp only [VarHost.step, PlainVars.step, hv, hc, he, hspace]
        exact ⟨trivial, place, hr⟩
      · simp only [VarHost.step, PlainVars.step, Boundary.deref, Boundary.require, hv, hc, he,
          hspace]
        exact ⟨trivial, place, hr.finish env _⟩
    · rcases hr.environment env with ⟨he, hspace⟩ | ⟨e, he, hspace⟩
      · simp only [VarHost.step, PlainVars.step, hv, hc, he, hspace]
        exact ⟨trivial, place, hr⟩
      · simp only [VarHost.step, PlainVars.step, Boundary.deref, Boundary.require, hv, hc, he,
          hspace, hr.deref hplace]
        exact ⟨trivial, place, hr.finish env _⟩

theorem Refines.run (hr : Refines spaces h p place)
    (hspell : ∀ bytes text, spell bytes = some text ↔ Text.Spells bytes text)
    (ops : List VarOperation) :
    (replies VarHost.step h ops).1 = (replies (PlainVars.step spell spaces) p ops).1 ∧
      ∃ place', Refines spaces (replies VarHost.step h ops).2
        (replies (PlainVars.step spell spaces) p ops).2 place' := by
  induction ops generalizing h p place with
  | nil => exact ⟨rfl, place, hr⟩
  | cons op ops ih =>
    obtain ⟨hreply, place', hr'⟩ := hr.step hspell op
    obtain ⟨hrest, hlast⟩ := ih hr'
    exact ⟨congrArg₂ List.cons hreply hrest, hlast⟩

theorem Refines.known_iff (hr : Refines spaces h p place) {env : String} {e : Environment}
    (he : h.store.environment? env = some e) (ns name : String) :
    (e.find? ns name).isSome ↔ (env, ns, name) ∈ p.names := by
  rw [hr.names, VarHost.find?, he, Option.bind_some]

/-- As many names as there are different pairs. -/
theorem Refines.size_eq_card (hr : Refines spaces h p place) {env : String} {e : Environment}
    (he : h.store.environment? env = some e) :
    e.vars.size = (p.names.filter fun key => key.1 = env).card := by
  have hkeys : p.names.filter (fun key => key.1 = env) =
      (e.vars.keys.map (Prod.mk env)).toFinset := by
    ext ⟨env', ns, name⟩
    simp only [Finset.mem_filter, List.mem_toFinset, List.mem_map, Prod.mk.injEq]
    constructor
    · rintro ⟨hmem, rfl⟩
      have hknown := (hr.known_iff he ns name).mpr hmem
      exact ⟨(ns, name), Table.mem_keys_iff_isSome.mpr hknown, rfl, rfl⟩
    · rintro ⟨_, hkey, rfl, rfl⟩
      exact ⟨(hr.known_iff he ns name).mp (Table.mem_keys_iff_isSome.mp hkey), rfl⟩
  have hnodup : (e.vars.keys.map (Prod.mk env)).Nodup :=
    (hr.unique he).map (Prod.mk_right_injective env)
  rw [hkeys, Table.size_eq, List.toFinset_card_of_nodup hnodup, List.length_map]

end

/-- Every program gets the same replies from the store as from a plain map that is told what
bytes spell. Two of its handles are the same var exactly when they are handles of the same cell:
of one name in one environment, or of one var that the program made. The var carries the name,
environments know exactly the names that were interned, and count them once. What an operation
of a program does, a session does by the command that says it. -/
theorem vars_refine_plain_map (settings : String → Settings) (names : List String)
    (spell : List UInt8 → Option String)
    (hspell : ∀ bytes text, spell bytes = some text ↔ Text.Spells bytes text)
    (ops : List VarOperation) :
    let told : List VarReply × VarHost β := VarHost.run settings names ops
    let expected := PlainVars.run spell (defaultSpaces settings names) ops
    let host := told.2
    let plain := expected.2
    told.1 = expected.1 ∧
      (∀ i j : Nat, (host.handles[i]?).map Var.id = (host.handles[j]?).map Var.id ↔
        plain.handles[i]? = plain.handles[j]?) ∧
      host.handles.map (fun v => (v.ns, v.name)) = plain.handles.map (fun c => (c.ns, c.name)) ∧
      (∀ env e, host.store.environment? env = some e →
        (∀ ns name, (e.find? ns name).isSome ↔ (env, ns, name) ∈ plain.names) ∧
        e.vars.size = (plain.names.filter fun key => key.1 = env).card) ∧
      ∀ (s : Session) (handle : Nat → String) (h : VarHost Body), s.Shows handle h →
        ∀ op command, op.Says s handle command → s.Does command h op := by
  obtain ⟨hreplies, place, hr⟩ := (Refines.start (β := β) settings names).run hspell ops
  exact ⟨hreplies, hr.id_eq_iff, hr.handle_names,
    fun env e he => ⟨hr.known_iff he, hr.size_eq_card he⟩,
    fun s handle h hs op command hop => hs.does hop⟩

/-- Two names that print alike, of which one comes across the boundary, the first of them again,
and the same name in another environment. -/
theorem vars_refine_plain_map_alike :
    let ops : List VarOperation :=
      [.intern "rt" (some "a/b") "c", .internText "rt" (some [97]) (some [98, 47, 99]),
        .intern "rt" (some "a/b") "c", .intern "other" (some "a/b") "c"]
    let host : VarHost Body := (VarHost.run (fun _ => {}) ["rt", "other"] ops).2
    host.handles.map (fun v => (v.ns, v.name)) =
        [("a/b", "c"), ("a", "b/c"), ("a/b", "c"), ("a/b", "c")] ∧
      (host.handles[0]?).map Var.id ≠ (host.handles[1]?).map Var.id ∧
      (host.handles[0]?).map Var.id = (host.handles[2]?).map Var.id ∧
      (host.handles[0]?).map Var.id ≠ (host.handles[3]?).map Var.id := by
  intro ops host
  have h := vars_refine_plain_map (β := Body) (fun _ => {}) ["rt", "other"] Text.ofTerminated?
    (fun _ _ => Text.ofTerminated?_eq_some_iff) ops
  let plain :=
    (PlainVars.run Text.ofTerminated? (defaultSpaces (fun _ => {}) ["rt", "other"]) ops).2
  have hcells : plain.handles =
      [.interned "rt" "a/b" "c", .interned "rt" "a" "b/c", .interned "rt" "a/b" "c",
        .interned "other" "a/b" "c"] := rfl
  refine ⟨h.2.2.1, fun hid => ?_, (h.2.1 0 2).mpr rfl, fun hid => ?_⟩
  · have hsame : plain.handles[0]? = plain.handles[1]? := (h.2.1 0 1).mp hid
    simp [hcells] at hsame
  · have hsame : plain.handles[0]? = plain.handles[3]? := (h.2.1 0 3).mp hid
    simp [hcells] at hsame

end

end ArityDispatch

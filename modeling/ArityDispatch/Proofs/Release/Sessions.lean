import ArityDispatch.Proofs.Release.Settle
import ArityDispatch.Session.Request

/-!
# Sessions without dangling handles

A session is sound if its store is, and if whatever it holds under a name is live there. All that
commands do is made of a few moves: a new store that extends the one before, a value held
under a name, a name dropped, and values built from literals. Each of them extends a sound
session, and none of them touches the log of releases.
-/

namespace ArityDispatch

namespace Session

structure Sound (s : Session) : Prop where
  store : s.store.Sound
  handles_unique : s.handles.Unique
  handles : ∀ {name v}, s.handles.get? name = some v → s.store.Live v

/-- The second session is what the first one became, with the new debts `ds`. -/
structure Extends (s s' : Session) (ds : List Nat) : Prop where
  sound : s'.Sound
  store : s.store.Extends s'.store ds
  released : s'.released = s.released

end Session

/-- A new environment knows no name. -/
theorem Environment.vars_of_create {settings : Settings} {e : Environment}
    (h : create settings = .ok e) : e.vars = {} := by
  unfold create at h
  split_ifs at h
  · cases hchecked : settings.checked with
    | error err => simp [hchecked, Except.map] at h
    | ok checked =>
      rw [hchecked] at h
      cases h
      rfl
  · cases h
    rfl

theorem Store.knows_of_no_vars {β : Type} {st : Store β} {e : Environment} (h : e.vars = {}) :
    st.Knows e where
  unique := h ▸ Table.unique_empty
  there hfind := by
    rw [Environment.find?, h] at hfind
    cases hfind

namespace Session

variable {s s' s'' : Session} {v : Value} {ds es : List Nat}

theorem Sound.live (hs : s.Sound) (h : s.InHand v) : s.store.Live v := by
  cases h with
  | handle hget => exact hs.handles hget
  | known henv hfind => exact hs.store.live_named henv hfind

theorem Sound.live_of_holds (hs : s.Sound) (h : s.Holds v) : s.store.Live v := by
  obtain ⟨u, hu, hreach⟩ := h
  exact hs.store.live_of_reaches (hs.live hu) hreach

/-- The identities that a session and its environments keep are those in its hands. -/
theorem Sound.mem_held_iff (hs : s.Sound) {id : Nat} :
    id ∈ s.held ++ s.store.named ↔ ∃ v, s.InHand v ∧ id ∈ v.refs := by
  rw [List.mem_append, Store.mem_named_iff hs.store]
  simp only [held, List.mem_flatMap, hs.handles_unique.mem_values_iff]
  constructor
  · rintro (⟨v, ⟨name, hname⟩, hid⟩ | ⟨env, e, ns, name, x, he, hfind, rfl⟩)
    · exact ⟨v, .handle hname, hid⟩
    · exact ⟨.var x, .known he hfind, List.mem_singleton_self _⟩
  · rintro ⟨v, hv, hid⟩
    cases hv with
    | handle hget => exact .inl ⟨v, ⟨_, hget⟩, hid⟩
    | @known env e ns name x he hfind =>
      exact .inr ⟨env, e, ns, name, x, he, hfind, (List.mem_singleton.mp hid).symm⟩

/-! ## Moves -/

namespace Extends

theorem refl (hs : s.Sound) : s.Extends s [] := ⟨hs, .refl hs.store, rfl⟩

theorem trans (h : s.Extends s' ds) (h' : s'.Extends s'' es) : s.Extends s'' (ds ++ es) :=
  ⟨h'.sound, h.store.trans h'.store, h'.released.trans h.released⟩

end Extends

theorem Sound.withStore (hs : s.Sound) {st : Store Body} (h : s.store.Extends st ds) :
    s.Extends (s.withStore st) ds where
  sound :=
    { hs with
      store := h.sound
      handles := fun hget => h.live (hs.handles hget) }
  store := h
  released := rfl

theorem Sound.hold (hs : s.Sound) (name : String) (hv : s.store.Live v) :
    s.Extends (s.hold name v) [] where
  sound :=
    { hs with
      handles_unique := hs.handles_unique.insert _ _
      handles := fun {n w} hget => by
        rw [Session.hold, Table.get?_insert] at hget
        split_ifs at hget
        · exact Option.some.inj hget ▸ hv
        · exact hs.handles hget }
  store := .refl hs.store
  released := rfl

theorem Sound.drop (hs : s.Sound) (name : String) :
    s.Extends { s with handles := s.handles.erase name } [] where
  sound :=
    { hs with
      handles_unique := hs.handles_unique.erase _
      handles := fun {n w} hget => by
        rw [Table.get?_erase] at hget
        split_ifs at hget
        exact hs.handles hget }
  store := .refl hs.store
  released := rfl

theorem sound_start : start.Sound where
  store := by
    have hempty : ({} : Store Body).Sound :=
      { roots_unique := Table.unique_empty
        callees_unique := Table.unique_empty
        roots_lt := nofun
        callees_lt := nofun
        apart := nofun
        live := nofun
        environments_unique := Table.unique_empty
        knows := nofun }
    exact (hempty.setEnvironment mainEnvironment (Store.knows_of_no_vars rfl)).sound
  handles_unique := Table.unique_empty
  handles := nofun

end Session

/-! ## Literals -/

section
variable {β : Type} {st : Store β} {held : String → Option Value}

mutual

/-- A literal is built from values that are held. -/
theorem Literal.build_live (l : Literal) {n m : Nat} {v : Value}
    (hheld : ∀ name v, held name = some v → st.Live v) (h : l.build held n = some (v, m)) :
    n ≤ m ∧ st.Live v := by
  cases l with
  | list items =>
    obtain ⟨⟨vs, m⟩, hvs, hv⟩ := Option.map_eq_some_iff.mp h
    obtain ⟨hle, hlive⟩ := Literal.buildItems_live items hheld hvs
    cases hv
    exact ⟨Nat.le_of_succ_le hle, Store.live_list hlive⟩
  | vector items =>
    obtain ⟨⟨vs, m⟩, hvs, hv⟩ := Option.map_eq_some_iff.mp h
    obtain ⟨hle, hlive⟩ := Literal.buildItems_live items hheld hvs
    cases hv
    exact ⟨Nat.le_of_succ_le hle, Store.live_vector hlive⟩
  | map entries =>
    obtain ⟨⟨es, m⟩, hes, hv⟩ := Option.map_eq_some_iff.mp h
    obtain ⟨hle, hlive⟩ := Literal.buildEntries_live entries hheld hes
    cases hv
    exact ⟨Nat.le_of_succ_le hle, Store.live_mapOf hlive⟩
  | set items =>
    obtain ⟨⟨vs, m⟩, hvs, hv⟩ := Option.map_eq_some_iff.mp h
    obtain ⟨hle, hlive⟩ := Literal.buildItems_live items hheld hvs
    cases hv
    exact ⟨Nat.le_of_succ_le hle, Store.live_setOf hlive⟩
  | handle name =>
    obtain ⟨w, hw, hv⟩ := Option.map_eq_some_iff.mp h
    cases hv
    exact ⟨le_rfl, hheld name v hw⟩
  | _ =>
    cases h
    exact ⟨le_rfl, Store.live_plain rfl rfl⟩
termination_by structural l

theorem Literal.buildItems_live (ls : List Literal) {n m : Nat} {vs : List Value}
    (hheld : ∀ name v, held name = some v → st.Live v)
    (h : Literal.buildItems held ls n = some (vs, m)) : n ≤ m ∧ ∀ v ∈ vs, st.Live v := by
  cases ls with
  | nil =>
    cases h
    exact ⟨le_rfl, by simp⟩
  | cons l rest =>
    obtain ⟨⟨v, k⟩, hv, h⟩ := Option.bind_eq_some_iff.mp h
    obtain ⟨⟨ws, m⟩, hws, hvs⟩ := Option.map_eq_some_iff.mp h
    cases hvs
    obtain ⟨hk, hlive⟩ := Literal.build_live l hheld hv
    obtain ⟨hm, hrest⟩ := Literal.buildItems_live rest hheld hws
    exact ⟨hk.trans hm, List.forall_mem_cons.mpr ⟨hlive, hrest⟩⟩
termination_by structural ls

theorem Literal.buildEntries_live (ls : List (Literal × Literal)) {n m : Nat}
    {es : List (Value × Value)} (hheld : ∀ name v, held name = some v → st.Live v)
    (h : Literal.buildEntries held ls n = some (es, m)) :
    n ≤ m ∧ ∀ e ∈ es, st.Live e.1 ∧ st.Live e.2 := by
  cases ls with
  | nil =>
    cases h
    exact ⟨le_rfl, by simp⟩
  | cons entry rest =>
    obtain ⟨key, l⟩ := entry
    obtain ⟨⟨k, i⟩, hk, h⟩ := Option.bind_eq_some_iff.mp h
    obtain ⟨⟨v, j⟩, hv, h⟩ := Option.bind_eq_some_iff.mp h
    obtain ⟨⟨ws, m⟩, hws, hes⟩ := Option.map_eq_some_iff.mp h
    cases hes
    obtain ⟨hi, hkey⟩ := Literal.build_live key hheld hk
    obtain ⟨hj, hvalue⟩ := Literal.build_live l hheld hv
    obtain ⟨hm, hrest⟩ := Literal.buildEntries_live rest hheld hws
    exact ⟨hi.trans (hj.trans hm), List.forall_mem_cons.mpr ⟨⟨hkey, hvalue⟩, hrest⟩⟩
termination_by structural ls

end

end

namespace Session

variable {s s' : Session} {v : Value}

theorem Sound.build (hs : s.Sound) {l : Literal} (h : s.build l = some (v, s')) :
    s.Extends s' [] ∧ s'.store.Live v := by
  obtain ⟨⟨w, n⟩, hb, hw⟩ := Option.map_eq_some_iff.mp h
  obtain ⟨hn, hlive⟩ := l.build_live (fun _ _ => hs.handles) hb
  cases hw
  have hdraw := hs.store.draw hn
  exact ⟨hs.withStore hdraw, hdraw.live hlive⟩

theorem Sound.buildAll (hs : s.Sound) {ls : List Literal} {vs : List Value}
    (h : s.buildAll ls = some (vs, s')) : s.Extends s' [] ∧ ∀ v ∈ vs, s'.store.Live v := by
  obtain ⟨⟨ws, n⟩, hb, hw⟩ := Option.map_eq_some_iff.mp h
  obtain ⟨hn, hlive⟩ := Literal.buildItems_live ls (fun _ _ => hs.handles) hb
  cases hw
  have hdraw := hs.store.draw hn
  exact ⟨hs.withStore hdraw, fun v hv => hdraw.live (hlive v hv)⟩

theorem Sound.buildPointer (hs : s.Sound) {pointer : Pointer} {p : Option Value}
    (h : s.buildPointer pointer = some (p, s')) :
    s.Extends s' [] ∧ ∀ v, p = some v → s'.store.Live v := by
  cases pointer with
  | none =>
    cases h
    exact ⟨.refl hs, nofun⟩
  | some l =>
    obtain ⟨⟨w, s''⟩, hb, hw⟩ := Option.map_eq_some_iff.mp h
    cases hw
    obtain ⟨hext, hlive⟩ := hs.build hb
    exact ⟨hext, fun v hv => Option.some.inj hv ▸ hlive⟩

theorem Sound.buildPointers (hs : s.Sound) {pointers : List Pointer} {ps : List (Option Value)}
    (h : s.buildPointers pointers = some (ps, s')) :
    s.Extends s' [] ∧ ∀ p ∈ ps, ∀ v, p = some v → s'.store.Live v := by
  induction pointers generalizing s ps with
  | nil =>
    cases h
    exact ⟨.refl hs, by simp⟩
  | cons pointer rest ih =>
    obtain ⟨⟨p, s₁⟩, hp, h⟩ := Option.bind_eq_some_iff.mp h
    obtain ⟨⟨qs, s₂⟩, hqs, hps⟩ := Option.map_eq_some_iff.mp h
    cases hps
    obtain ⟨hext, hlive⟩ := hs.buildPointer hp
    obtain ⟨hext', hrest⟩ := ih hext.sound hqs
    refine ⟨hext.trans hext', List.forall_mem_cons.mpr ⟨fun v hv => ?_, hrest⟩⟩
    exact hext'.store.live (hlive v hv)

end Session

end ArityDispatch

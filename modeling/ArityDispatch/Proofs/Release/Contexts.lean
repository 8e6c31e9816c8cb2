import ArityDispatch.Proofs.Release.Commands
import Mathlib.Order.WellFoundedSet

/-!
# Contexts are given back once

A context goes over to a closure when the closure is made, and is given back when the closure
dies, if it owes that. The log of releases and the callables that are still in the store share
out what was ever owed: together they are a permutation of it, and no identity occurs twice.
Each command keeps this balance, so it holds after every run.

What is left in the store after a command is kept by something. If no var can be reached from
its own root, then going from a var to what keeps it comes to an end, and it ends at what the
session has in its hands. So a closure that the session does not hold is not in the store, and
its context is in the log.
-/

namespace ArityDispatch

namespace Session

/-- The session after a command. A command without an answer changes nothing. -/
def after (s : Session) (c : Command × Option String) : Session :=
  ((s.step c.1 c.2).map Prod.snd).getD s

/-- The contexts that were handed over in a run, with the identities of their closures. -/
def given (s : Session) : List (Command × Option String) → List (Nat × Context)
  | [] => []
  | c :: rest => s.handed c.1 ++ (s.after c).given rest

/-- The log and the store share out what was owed. -/
structure Balanced (s : Session) (given : List (Nat × Context)) : Prop where
  sound : s.Sound
  settled : s.store.Settled s.held
  given_nodup : (given.map Prod.fst).Nodup
  given_lt : ∀ {g}, g ∈ given → g.1 < s.store.next
  shares : (s.released ++ s.store.debts).Perm (owed given)
  gone : ∀ {id}, id ∈ s.released → id ∉ s.store.callees.keys

variable {s s' : Session} {given : List (Nat × Context)} {id : Nat}

theorem owed_append (as bs : List (Nat × Context)) : owed (as ++ bs) = owed as ++ owed bs := by
  rw [owed, List.filter_append, List.map_append, owed, owed]

theorem mem_owed_iff : id ∈ owed given ↔ ∃ context, (id, context) ∈ given ∧ context.owes := by
  simp [owed]

theorem Balanced.start : start.Balanced [] where
  sound := sound_start
  settled := ⟨nofun, nofun⟩
  given_nodup := List.nodup_nil
  given_lt := nofun
  shares := .nil
  gone := nofun

/-! ## One command -/

/-- A closure that was handed a context has an identity of its own. -/
theorem handed_lt {command : Command} {r : Answer × Session} (h : s.execute command = some r) :
    ∀ g ∈ s.handed command, s.store.next ≤ g.1 ∧ g.1 < r.2.store.next := by
  cases command with
  | makeClosure name arity context entries =>
    have hnext : (s.makeClosure name arity context entries).2.store.next = s.store.next + 1 := by
      unfold makeClosure
      split <;> rfl
    cases h
    simp [handed, Command.context?, hnext]
  | boundary request =>
    cases request with
    | newClosure bits context =>
      by_cases hbits : bits = Arity.refused
      · simp [handed, Command.context?, hbits]
      · have hnext : (Boundary.newClosure bits context s.store).2.next = s.store.next + 1 := by
          rw [Boundary.newClosure, if_neg hbits]
          rfl
        have hr : r = (.ofPointer (Boundary.newClosure bits context s.store).1,
            s.withStore (Boundary.newClosure bits context s.store).2) := (Option.some.inj h).symm
        simp [handed, Command.context?, hbits, hr, withStore, hnext]
    | _ => simp [handed, Command.context?]
  | _ => simp [handed, Command.context?]

/-- A command without an answer hands nothing over. -/
theorem handed_of_no_answer {command : Command} (h : s.execute command = none) :
    s.handed command = [] := by
  cases command with
  | makeClosure name arity context entries => cases h
  | boundary request =>
    cases request with
    | newClosure bits context => cases h
    | _ => rfl
  | _ => rfl

theorem Sound.settle (hs : s.Sound) : s.settle.Sound ∧ s.settle.store.Settled s.settle.held := by
  have hrelease := hs.store.release s.held
  refine ⟨?_, hrelease.settled⟩
  exact
    { store := hrelease.sound
      handles_unique := hs.handles_unique
      handles := fun {name v} hget =>
        have hrefs : v.refs ⊆ s.held := fun id hid => List.mem_flatMap.mpr
          ⟨v, hs.handles_unique.mem_values_iff.mpr ⟨name, hget⟩, hid⟩
        hrelease.live hrefs (hs.handles hget) }

theorem settle_eq_self (h : s.store.Settled s.held) : s.settle = s := by
  rw [Session.settle, h.release]
  simp

/-- What a command owes and what is given back after it keep the balance. -/
theorem Balanced.settle (h : s.Balanced given) {handed : List (Nat × Context)}
    (hext : s.Extends s' (owed handed)) (hnodup : (handed.map Prod.fst).Nodup)
    (hhanded : ∀ g ∈ handed, s.store.next ≤ g.1 ∧ g.1 < s'.store.next) :
    s'.settle.Balanced (given ++ handed) := by
  let owing := (s'.store.release s'.held).2
  have hrelease : s'.store.Released s'.held s'.settle.store owing :=
    hext.sound.store.release s'.held
  have hreleased : s'.settle.released = s.released ++ owing := hext.released ▸ rfl
  have hdisjoint : (given.map Prod.fst).Disjoint (handed.map Prod.fst) := by
    intro id hid hid'
    obtain ⟨g, hg, rfl⟩ := List.mem_map.mp hid
    obtain ⟨g', hg', heq⟩ := List.mem_map.mp hid'
    have hlt := h.given_lt hg
    have hle := (hhanded g' hg').1
    omega
  obtain ⟨hsound, hsettled⟩ := hext.sound.settle
  refine
    { sound := hsound
      settled := hsettled
      given_nodup := List.map_append ▸ h.given_nodup.append hnodup hdisjoint
      given_lt := fun {g} hg => ?_
      shares := ?_
      gone := fun {id} hid => ?_ }
  · rw [hrelease.next]
    rcases List.mem_append.mp hg with hg | hg
    · exact (h.given_lt hg).trans_le hext.store.next
    · exact (hhanded g hg).2
  · calc s'.settle.released ++ s'.settle.store.debts
        = s.released ++ (owing ++ s'.settle.store.debts) := by
          rw [hreleased, List.append_assoc]
      _ |>.Perm (s.released ++ s'.store.debts) := hrelease.debts.append_left _
      _ = (s.released ++ s.store.debts) ++ owed handed := by
          rw [hext.store.debts, List.append_assoc]
      _ |>.Perm (owed given ++ owed handed) := h.shares.append_right _
      _ = owed (given ++ handed) := (owed_append given handed).symm
  · rw [hreleased] at hid
    rcases List.mem_append.mp hid with hid | hid
    · -- an identity in the log is too old to be drawn again
      intro hcallee
      rcases hext.store.fresh (hrelease.callees hcallee) with hold | hnew
      · exact h.gone hid hold
      · have hmem : id ∈ owed given := h.shares.subset (List.mem_append_left _ hid)
        obtain ⟨context, hg, -⟩ := mem_owed_iff.mp hmem
        exact absurd (h.given_lt hg) (not_lt.mpr hnew)
    · exact hrelease.gone hid

theorem Balanced.after (h : s.Balanced given) (c : Command × Option String) :
    (s.after c).Balanced (given ++ s.handed c.1) := by
  obtain ⟨command, keep⟩ := c
  cases hr : s.execute command with
  | none =>
    rw [handed_of_no_answer hr, List.append_nil]
    simpa [Session.after, step, hr] using h
  | some r =>
    have hkeeps := h.sound.execute hr
    have hlt := handed_lt hr
    have hnodup : ((s.handed command).map Prod.fst).Nodup := by
      unfold handed
      cases command.context? <;> simp
    cases hv : r.1.object? with
    | none =>
      have hafter : s.after (command, keep) = r.2.settle := by
        simp [Session.after, step, hr, hv]
      exact hafter ▸ h.settle hkeeps.grows hnodup hlt
    | some v =>
      cases keep with
      | none =>
        have hafter : s.after (command, none) = r.2.settle := by
          simp [Session.after, step, hr]
        exact hafter ▸ h.settle hkeeps.grows hnodup hlt
      | some name =>
        have hafter : s.after (command, some name) = (r.2.hold name v).settle := by
          simp [Session.after, step, hr, hv]
        have hhold := hkeeps.grows.sound.hold name (hkeeps.live hv)
        have hgrows := hkeeps.grows.trans hhold
        rw [List.append_nil] at hgrows
        exact hafter ▸ h.settle hgrows hnodup hlt

theorem Balanced.run (h : s.Balanced given) (commands : List (Command × Option String)) :
    (s.run commands).Balanced (given ++ s.given commands) := by
  induction commands generalizing s given with
  | nil => simpa [Session.run, Session.given] using h
  | cons c rest ih =>
    have hrest := ih (h.after c)
    rw [List.append_assoc] at hrest
    exact hrest

/-! ## What is left is held -/

/-- A var that is still in the store is held, since the vars that keep it come to an end. -/
theorem Balanced.held_of_root (h : s.Balanced given) (hfeeds : ∀ id, ¬ s.store.Feeds id id)
    (hid : id ∈ s.store.roots.keys) : ∃ x : Var, x.id = id ∧ s.Holds (.var x) := by
  have horder : IsStrictOrder Nat s.store.Feeds :=
    { irrefl := hfeeds
      trans := fun _ _ _ => Store.Feeds.trans }
  -- the order has no infinite descent, since there are only finitely many vars
  have hfounded := (List.finite_toSet s.store.roots.keys).wellFoundedOn (r := s.store.Feeds)
  refine hfounded.induction (P := fun id => ∃ x : Var, x.id = id ∧ s.Holds (.var x)) hid
    fun id hid ih => ?_
  rcases List.mem_append.mp (h.settled.roots id hid) with hheld | hroot
  · obtain ⟨v, hv, hrefs⟩ := h.sound.mem_held_iff.mp hheld
    obtain ⟨x, hx, hreach⟩ := h.sound.store.reaches_var (h.sound.live hv) hrefs hid
    exact ⟨x, hx, hv.holds hreach⟩
  · obtain ⟨y, root, hy, hrefs⟩ := (Store.mem_rootRefs_iff h.sound.store).mp hroot
    obtain ⟨x, hx, hreach⟩ := h.sound.store.reaches_var (h.sound.store.live hy) hrefs hid
    obtain ⟨z, hz, hholds⟩ :=
      ih y.id (Store.mem_roots_of_root? hy) ⟨y, x, root, rfl, hx, hy, hreach⟩
    have hlead : s.store.Leads (.var z) root := .root (Store.root?_congr hz ▸ hy)
    exact ⟨x, hx, hholds.trans (hreach.head hlead)⟩

/-- A callable that is still in the store is held. -/
theorem Balanced.held_of_callee (h : s.Balanced given) (hfeeds : ∀ id, ¬ s.store.Feeds id id)
    (hid : id ∈ s.store.callees.keys) : s.HoldsCallable id := by
  rcases List.mem_append.mp (h.settled.callees id hid) with hheld | hroot
  · obtain ⟨v, hv, hrefs⟩ := h.sound.mem_held_iff.mp hheld
    obtain ⟨c, hc, hreach⟩ := h.sound.store.reaches_callable (h.sound.live hv) hrefs hid
    exact ⟨c, hc, hv.holds hreach⟩
  · obtain ⟨y, root, hy, hrefs⟩ := (Store.mem_rootRefs_iff h.sound.store).mp hroot
    obtain ⟨c, hc, hreach⟩ := h.sound.store.reaches_callable (h.sound.store.live hy) hrefs hid
    obtain ⟨z, hz, hholds⟩ := h.held_of_root hfeeds (Store.mem_roots_of_root? hy)
    have hlead : s.store.Leads (.var z) root := .root (Store.root?_congr hz ▸ hy)
    exact ⟨c, hc, hholds.trans (hreach.head hlead)⟩

/-! ## The two ways to no closure -/

/-- A closure whose entries are refused dies at once. -/
theorem Balanced.refused_entries (h : s.Balanced given) (name : Option String) (arity : Arity)
    (context : Context) {entries : List (Nat × Body)} (keep : Option String) {e : CallError}
    (he : ({} : Entries Body).installAll entries = .error e) :
    s.step (.makeClosure name arity context entries) keep =
      some (.error e, { s with
        store := s.store.claim 1
        released := s.released ++ owed [(s.store.next, context)] }) := by
  have hheld : ∀ id ∈ s.held, id < s.store.next := by
    intro id hid
    obtain ⟨v, hv, hrefs⟩ := h.sound.mem_held_iff.mp (List.mem_append_left _ hid)
    exact (h.sound.live hv).lt_next h.sound.store id hrefs
  let made := s.withStore (s.store.newCallable arity (.closure name) { context }).2
  have hexecute : s.execute (.makeClosure name arity context entries) = some (.error e, made) := by
    simp only [execute, makeClosure, he, made]
  have hrelease : made.store.release made.held =
      (s.store.claim 1, if context.owes then [s.store.next] else []) :=
    h.settled.release_newCallable h.sound.store hheld arity (.closure name) { context }
  simp only [step, hexecute, Option.map_some, Answer.object?, Session.settle, hrelease,
    owed_singleton]
  rfl

/-- The descriptor that is none makes no closure, and the session stays as it is. -/
theorem Balanced.refused_descriptor (h : s.Balanced given) (context : Context)
    (keep : Option String) :
    s.step (.boundary (.newClosure Arity.refused context)) keep = some (.null, s) := by
  have hexecute : s.execute (.boundary (.newClosure Arity.refused context)) = some (.null, s) := by
    rfl
  simp only [step, hexecute, Option.map_some, Answer.object?, settle_eq_self h.settled]

/-! ## Whole runs -/

/-- After every run of commands the log of releases holds each closure once at most, and only
closures that were made with a context whose base is not null and which is releasable. No
closure is in it that the session still holds: under a name, in a collection, in the root of a
var, or through a name that an environment knows. If no var can be reached from its own root,
then every closure that the session does not hold, and that owed its context, is in the log
exactly once. A closure whose entries are refused gives its context back at once. A refused
descriptor makes no closure and releases nothing. -/
theorem contexts_released_once (commands : List (Command × Option String)) :
    let s := start.run commands
    let given := start.given commands
    (given.map Prod.fst).Nodup ∧ s.released.Nodup ∧
      (∀ id ∈ s.released, ∃ context, (id, context) ∈ given ∧
        context.base.isSome ∧ context.releasable) ∧
      (∀ id, s.HoldsCallable id → id ∉ s.released) ∧
      ((∀ id, ¬ s.store.Feeds id id) → ∀ id context, (id, context) ∈ given →
        context.base.isSome → context.releasable → ¬ s.HoldsCallable id →
        s.released.count id = 1) ∧
      (∀ name arity context entries keep e,
        ({} : Entries Body).installAll entries = .error e →
        s.step (.makeClosure name arity context entries) keep =
          some (.error e, { s with
            store := s.store.claim 1
            released := s.released ++ owed [(s.store.next, context)] })) ∧
      ∀ context keep,
        s.step (.boundary (.newClosure Arity.refused context)) keep = some (.null, s) := by
  intro s given
  have h : s.Balanced given := Balanced.start.run commands
  have hgiven : (owed given).Nodup :=
    h.given_nodup.sublist (List.filter_sublist.map Prod.fst)
  have hlog : (s.released ++ s.store.debts).Nodup := h.shares.nodup_iff.mpr hgiven
  have hreleased : s.released.Nodup := (List.nodup_append.mp hlog).1
  refine ⟨h.given_nodup, hreleased, fun id hid => ?_, fun id hholds hid => ?_, ?_,
    fun name arity context entries keep e => h.refused_entries name arity context keep,
    h.refused_descriptor⟩
  · have hmem : id ∈ owed given := h.shares.subset (List.mem_append_left _ hid)
    obtain ⟨context, hg, howes⟩ := mem_owed_iff.mp hmem
    exact ⟨context, hg, by simpa [Context.owes] using howes⟩
  · obtain ⟨c, rfl, hc⟩ := hholds
    exact h.gone hid (Store.live_callable.mp (h.sound.live_of_holds hc))
  · intro hfeeds id context hg hbase hreleasable hnot
    have hmem : id ∈ owed given :=
      mem_owed_iff.mpr ⟨context, hg, by simp [Context.owes, hbase, hreleasable]⟩
    rcases List.mem_append.mp (h.shares.symm.subset hmem) with hid | hid
    · exact List.count_eq_one_of_mem hreleased hid
    · exact absurd (h.held_of_callee hfeeds (s.store.debts_subset hid)) hnot

/-- A closure that only the root of a var holds, before and after the var is dropped. -/
theorem contexts_released_once_through_root :
    let commands : List (Command × Option String) :=
      [(.makeClosure (some "f") ⟨1⟩ ⟨some 5, true⟩ [], some "f"),
        (.makeVar "user" "x" (some (.handle "f")), some "v"), (.drop "f", none)]
    let s := start.run commands
    let dropped := start.run (commands ++ [(.drop "v", none)])
    s.HoldsCallable 1 ∧ 1 ∉ s.released ∧ dropped.released.count 1 = 1 := by
  intro commands s dropped
  let x : Var := ⟨2, "user", "x"⟩
  let c : Callable := ⟨1, ⟨1⟩, .closure (some "f")⟩
  have hhandle : s.InHand (.var x) := @InHand.handle s "v" _ rfl
  have hlead : s.store.Leads (.var x) (.callable c) := .root rfl
  have hholds : s.HoldsCallable 1 := ⟨c, rfl, hhandle.holds (.single hlead)⟩
  have hfeeds : ∀ id, ¬ dropped.store.Feeds id id := by
    rintro id ⟨y, -, root, -, -, hroot, -⟩
    have hmem : y.id ∈ dropped.store.roots.keys := Store.mem_roots_of_root? hroot
    cases hmem
  have hnot : ¬ dropped.HoldsCallable 1 := by
    rintro ⟨d, -, hd⟩
    have hsound := (Balanced.start.run (commands ++ [(.drop "v", none)])).sound
    have hmem : d.id ∈ dropped.store.callees.keys :=
      Store.live_callable.mp (hsound.live_of_holds hd)
    cases hmem
  have hbefore := contexts_released_once commands
  have hafter := contexts_released_once (commands ++ [(.drop "v", none)])
  refine ⟨hholds, hbefore.2.2.2.1 1 hholds, ?_⟩
  exact hafter.2.2.2.2.1 hfeeds 1 ⟨some 5, true⟩ (by decide) rfl rfl hnot

end Session

end ArityDispatch

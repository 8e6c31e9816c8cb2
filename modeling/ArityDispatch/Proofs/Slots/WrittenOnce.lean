import ArityDispatch.Proofs.Calls.Counterparts
import ArityDispatch.Proofs.Slots.Journals

/-!
# Entries are written once

The log of a history decides what is in the slots of a closure: the entry that was offered
first. Identities are never used twice, so no later closure takes over the slots of an earlier
one, and an offer changes one slot of one closure at most. Both are said by `Recorded`, which
one operation keeps, and so every history.

`entries_written_once` reads the claims off that: when an installation is accepted, what it
changes, and which entry a call runs, at any point of any history.
-/

namespace ArityDispatch

variable {β : Type}

namespace Event

/-- The closure that an event is about, if it is about one. -/
def callable? : Event β → Option Callable
  | made c _ | offered c _ _ => some c
  | raised .. | emptied .. => none

theorem offer?_of_ne {id : Nat} {event : Event β}
    (h : ∀ c, event.callable? = some c → c.id ≠ id) (slot : Nat) : event.offer? id slot = none := by
  cases event with
  | offered c k body =>
    have hid : c.id ≠ id := h c rfl
    simp [offer?, hid]
  | _ => rfl

theorem callable?_of_mem_built {c : Callable} {context : Context} {bodies : List (Nat × β)}
    {event : Event β} (h : event ∈ .made c context :: built c bodies) :
    event.callable? = some c := by
  rcases List.mem_cons.mp h with rfl | h
  · rfl
  · obtain ⟨b, -, rfl⟩ := List.mem_map.mp h
    rfl

theorem made_mem_built_iff {c d : Callable} {context context' : Context} {bodies : List (Nat × β)} :
    .made d context' ∈ .made c context :: built c bodies ↔ d = c ∧ context' = context := by
  simp [built]

theorem across_of_installable {f : Option Value} {slot : Nat} {body : Option β} {c : Callable}
    {b : β} (h : Boundary.Installable f body c b) : across f slot body = [.offered c slot b] := by
  obtain ⟨rfl, hc, rfl⟩ := h
  simp [across, hc]

theorem across_of_not_installable {f : Option Value} {slot : Nat} {body : Option β}
    (h : ∀ c b, ¬ Boundary.Installable f body c b) : across f slot body = [] := by
  unfold across
  split
  · next c b => exact if_neg fun hc => h c b ⟨rfl, hc, rfl⟩
  · rfl

end Event

section
variable {log events : List (Event β)} {c d : Callable} {context : Context} {slot : Nat}

theorem firstEntry_append (log events : List (Event β)) (c : Callable) (slot : Nat) :
    firstEntry (log ++ events) c slot = (firstEntry log c slot).or (firstEntry events c slot) :=
  List.findSome?_append

theorem firstEntry_eq_none (h : ∀ event ∈ log, ∀ d, event.callable? = some d → d.id ≠ c.id)
    (slot : Nat) : firstEntry log c slot = none :=
  List.findSome?_eq_none_iff.mpr fun event hevent => Event.offer?_of_ne (h event hevent) slot

theorem firstEntry_offered (c d : Callable) (k slot : Nat) (body : β) :
    firstEntry [.offered c k body] d slot =
      if c.id = d.id ∧ k = slot ∧ slot ≤ maxParams then some body else none := by
  simp only [firstEntry, List.findSome?_cons, Event.offer?, List.findSome?_nil]
  split_ifs <;> rfl

theorem firstEntry_built (c : Callable) (context : Context) (bodies : List (Nat × β)) (slot : Nat) :
    firstEntry (.made c context :: Event.built c bodies) c slot =
      Entries.firstFor bodies slot := by
  simp only [firstEntry, List.findSome?_cons, Event.offer?, Event.built,
    List.findSome?_map, Entries.firstFor, Function.comp_def, true_and]

end

/-! ## The log decides the slots -/

/-- The store agrees with the log: the closures that are still there hold the entries that were
offered first, and no identity that is still to be drawn is in the log. -/
structure Recorded (log : List (Event β)) (st : Store β) : Prop where
  below : ∀ {d callee}, st.callee? d = some callee → d.id < st.next
  known : ∀ {event c}, event ∈ log → event.callable? = some c → c.id < st.next
  closure : ∀ {c context}, .made c context ∈ log → c.isClosure = true
  unique : ∀ {c d context context'}, .made c context ∈ log → .made d context' ∈ log →
    d.id = c.id → d = c ∧ context' = context
  holds : ∀ {c context callee}, .made c context ∈ log → st.callee? c = some callee →
    callee.context = context ∧ ∀ slot, callee.entries.get? slot = firstEntry log c slot

namespace Recorded

variable {log events : List (Event β)} {st after : Store β} {c d : Callable}
  {context : Context}

theorem empty : Recorded ([] : List (Event β)) {} where
  below := nofun
  known := nofun
  closure := nofun
  unique := nofun
  holds := nofun

/-- An operation that makes no callable and offers nothing. -/
theorem quiet (h : Recorded log st) (hevents : ∀ event ∈ events, event.callable? = none)
    (hnext : st.next ≤ after.next)
    (hcallee : ∀ {d callee}, after.callee? d = some callee → st.callee? d = some callee) :
    Recorded (log ++ events) after := by
  have hold : ∀ {event d}, event ∈ log ++ events → event.callable? = some d → event ∈ log := by
    intro event d hevent hd
    refine (List.mem_append.mp hevent).resolve_right fun hnew => ?_
    rw [hevents event hnew] at hd
    cases hd
  have hmade : ∀ {c context}, .made c context ∈ log ++ events → .made c context ∈ log :=
    fun hin => hold hin rfl
  have hnone : ∀ c slot, firstEntry events c slot = none := fun c =>
    firstEntry_eq_none fun event hevent d hd => by
      rw [hevents event hevent] at hd
      cases hd
  exact
    { below := fun hd => (h.below (hcallee hd)).trans_le hnext
      known := fun hevent hc => (h.known (hold hevent hc) hc).trans_le hnext
      closure := fun hin => h.closure (hmade hin)
      unique := fun hin hin' => h.unique (hmade hin) (hmade hin')
      holds := fun {c context callee} hin hd => by
        simpa only [firstEntry_append, hnone, Option.or_none] using
          h.holds (hmade hin) (hcallee hd) }

theorem silent (h : Recorded log st) (hnext : st.next ≤ after.next)
    (hcallee : ∀ {d callee}, after.callee? d = some callee → st.callee? d = some callee) :
    Recorded (log ++ []) after :=
  h.quiet (by simp) hnext hcallee

theorem callee?_newCallable (arity : Arity) (origin : Origin) (callee : Callee β) (d : Callable) :
    (st.newCallable arity origin callee).2.callee? d =
      if d.id = st.next then some callee else st.callee? d :=
  Table.get?_insert st.callees st.next d.id callee

theorem below_newCallable (h : Recorded log st) (arity : Arity) (origin : Origin)
    (callee : Callee β) {found : Callee β}
    (hd : (st.newCallable arity origin callee).2.callee? d = some found) : d.id < st.next + 1 := by
  rw [callee?_newCallable] at hd
  split_ifs at hd with hnew
  · omega
  · exact (h.below hd).trans (Nat.lt_succ_self _)

/-- A closure that was made before is not the one that is made now. -/
theorem callee?_made (h : Recorded log st) {arity : Arity} {origin : Origin} {callee : Callee β}
    (hmade : .made c context ∈ log) :
    (st.newCallable arity origin callee).2.callee? c = st.callee? c := by
  have hlt : c.id < st.next := h.known hmade rfl
  rw [callee?_newCallable, if_neg hlt.ne]

theorem native (h : Recorded log st) (arity : Arity) (description : String) (entries : Entries β) :
    Recorded (log ++ []) (st.newCallable arity (.native description) { entries }).2 := by
  rw [List.append_nil]
  exact
    { below := h.below_newCallable arity (.native description) { entries }
      known := fun hevent hc => (h.known hevent hc).trans (Nat.lt_succ_self _)
      closure := h.closure
      unique := h.unique
      holds := fun hmade hd => h.holds hmade (h.callee?_made hmade ▸ hd) }

/-- A new closure has an identity of its own, and its builder's entries in its slots. -/
theorem newClosure (h : Recorded log st) (arity : Arity) (name : Option String)
    {bodies : List (Nat × β)} {entries : Entries β}
    (hentries : ({} : Entries β).installAll bodies = .ok entries)
    (hnew : st.newCallable arity (.closure name) { context, entries } = (c, after)) :
    Recorded (log ++ .made c context :: Event.built c bodies) after := by
  have hafter : after = (st.newCallable arity (.closure name) { context, entries }).2 :=
    hnew ▸ rfl
  have hc : c = ⟨st.next, arity, .closure name⟩ := (Prod.mk.inj hnew).1.symm
  have hid : c.id = st.next := hc ▸ rfl
  have hold : ∀ {d context'}, .made d context' ∈ log → d.id ≠ c.id :=
    fun hd => hid ▸ (h.known hd rfl).ne
  have hmade : ∀ {d context'}, .made d context' ∈ log ++ .made c context :: Event.built c bodies →
      .made d context' ∈ log ∨ d = c ∧ context' = context := fun hd =>
    (List.mem_append.mp hd).imp_right Event.made_mem_built_iff.mp
  refine
    { below := fun {d callee} hd => ?_
      known := fun {event d} hevent hd => ?_
      closure := fun {d context'} hd => ?_
      unique := fun {d d' context' context''} hd hd' heq => ?_
      holds := fun {d context' callee} hd hcallee => ?_ }
  · rw [hafter] at hd ⊢
    exact h.below_newCallable arity (.closure name) { context, entries } hd
  · have hnext : after.next = st.next + 1 := hafter ▸ rfl
    rw [hnext]
    rcases List.mem_append.mp hevent with hevent | hevent
    · exact (h.known hevent hd).trans (Nat.lt_succ_self _)
    · rw [Event.callable?_of_mem_built hevent] at hd
      rw [← Option.some.inj hd, hid]
      exact Nat.lt_succ_self _
  · rcases hmade hd with hd | ⟨rfl, -⟩
    · exact h.closure hd
    · exact hc ▸ rfl
  · rcases hmade hd with hin | ⟨rfl, rfl⟩ <;> rcases hmade hd' with hin' | ⟨rfl, rfl⟩
    · exact h.unique hin hin' heq
    · exact absurd heq.symm (hold hin)
    · exact absurd heq (hold hin')
    · exact ⟨rfl, rfl⟩
  · rw [hafter] at hcallee
    rcases hmade hd with hd | ⟨rfl, rfl⟩
    · have hslots := h.holds hd (h.callee?_made hd ▸ hcallee)
      have hnone : ∀ slot,
          firstEntry (.made c context :: Event.built c bodies) d slot = none :=
        firstEntry_eq_none fun event hevent d' hd' => by
          rw [Event.callable?_of_mem_built hevent] at hd'
          rw [← Option.some.inj hd']
          exact (hold hd).symm
      refine ⟨hslots.1, fun slot => ?_⟩
      rw [firstEntry_append, hnone, Option.or_none]
      exact hslots.2 slot
    · rw [callee?_newCallable, if_pos hid] at hcallee
      obtain rfl := Option.some.inj hcallee
      have hnone : ∀ slot, firstEntry log d slot = none :=
        firstEntry_eq_none fun event hevent d' hd' => hid ▸ (h.known hevent hd').ne
      refine ⟨rfl, fun slot => ?_⟩
      rw [firstEntry_append, hnone, Option.none_or, firstEntry_built,
        Entries.get?_installAll hentries, Entries.get?_empty, Option.none_or]

/-- An offer to a closure reaches the slot that the log says. -/
theorem offer (h : Recorded log st) (slot : Nat) (body : β) (hlive : (st.callee? c).isSome) :
    Recorded (log ++ [.offered c slot body]) (st.offer c slot body) := by
  have hmade : ∀ {d context'}, .made d context' ∈ log ++ [.offered c slot body] →
      .made d context' ∈ log := by simp
  have hnext := st.next_offer c slot body
  have hfound : ∀ {d callee}, (st.offer c slot body).callee? d = some callee →
      ∃ before, st.callee? d = some before ∧ callee.context = before.context ∧
        ∀ j, callee.entries.get? j =
          (before.entries.get? j).or (firstEntry [.offered c slot body] d j) := by
    intro d callee hd
    rw [Store.callee?_offer] at hd
    by_cases hid : d.id = c.id
    · rw [if_pos hid] at hd
      obtain ⟨before, hbefore, rfl⟩ := Option.map_eq_some_iff.mp hd
      refine ⟨before, hbefore, rfl, fun j => ?_⟩
      rw [Entries.get?_offer, firstEntry_offered]
      simp only [hid, true_and]
    · rw [if_neg hid] at hd
      refine ⟨callee, hd, rfl, fun j => ?_⟩
      rw [firstEntry_offered, if_neg fun hj => hid hj.1.symm, Option.or_none]
  obtain ⟨target, htarget⟩ := Option.isSome_iff_exists.mp hlive
  refine
    { below := fun {d callee} hd => ?_
      known := fun {event d} hevent hd => ?_
      closure := fun hd => h.closure (hmade hd)
      unique := fun hd hd' => h.unique (hmade hd) (hmade hd')
      holds := fun {d context' callee} hd hcallee => ?_ }
  · obtain ⟨before, hbefore, -, -⟩ := hfound hd
    exact hnext ▸ h.below hbefore
  · rw [hnext]
    rcases List.mem_append.mp hevent with hevent | hevent
    · exact h.known hevent hd
    · rw [List.mem_singleton.mp hevent] at hd
      exact Option.some.inj hd ▸ h.below htarget
  · obtain ⟨before, hbefore, hcontext, hentries⟩ := hfound hcallee
    have hslots := h.holds (hmade hd) hbefore
    refine ⟨hcontext.trans hslots.1, fun j => ?_⟩
    rw [hentries, hslots.2, firstEntry_append]

/-- An installation across the boundary is an offer, or nothing happens. -/
theorem across (h : Recorded log st) {f : Option Value} (slot : Nat) (body : Option β)
    (hlive : ∀ c, f = some (.callable c) → (st.callee? c).isSome) :
    Recorded (log ++ Event.across f slot body) (Boundary.installEntry f slot body st).2 := by
  by_cases hany : ∃ c b, Boundary.Installable f body c b
  · obtain ⟨c, b, hinst⟩ := hany
    rw [Event.across_of_installable hinst, Boundary.installEntry_of_installable hinst]
    obtain ⟨hf, -, -⟩ := hinst
    exact h.offer slot b (hlive c hf)
  · have hnone : ∀ c b, ¬ Boundary.Installable f body c b := fun c b hinst => hany ⟨c, b, hinst⟩
    rw [Event.across_of_not_installable hnone, Boundary.installEntry_of_not_installable hnone]
    exact h.silent le_rfl id

theorem release (h : Recorded log st) (held : List Nat) :
    Recorded (log ++ []) (st.release held).1 := by
  obtain ⟨roots, hsettled⟩ := st.settleVars_eq held st.roots.size
  have hnext : (st.release held).1.next = st.next := by simp only [Store.release, hsettled]
  refine h.silent hnext.ge fun {d callee} hd => ?_
  simp only [Store.release, Store.callee?, Table.get?_filterKeys, hsettled] at hd
  split_ifs at hd
  exact hd

theorem interned (h : Recorded log st) (env : String) (e : Environment) (ns name : String) :
    Recorded (log ++ [])
      ((e.intern st ns name).2.2.setEnvironment env (e.intern st ns name).2.1) := by
  unfold Environment.intern
  cases e.find? ns name with
  | some v => exact h.silent le_rfl id
  | none => exact h.silent (Nat.le_succ st.next) id

theorem operates (h : Recorded log st) (hop : st.Operates events after) :
    Recorded (log ++ events) after := by
  have hslot : ∀ event : Event β, event.callable? = none →
      ∀ event' ∈ [event], event'.callable? = none := by simp
  cases hop with
  | claim n => exact h.silent (Nat.le_add_right _ n) id
  | newVar ns name root => exact h.silent (Nat.le_succ _) id
  | bind v value => exact h.silent le_rfl id
  | native arity description entries => exact h.native arity description entries
  | closure arity name hentries hnew => exact h.newClosure arity name hentries hnew
  | offer slot body hclosure hlive => exact h.offer slot body hlive
  | across slot body hlive => exact h.across slot body hlive
  | @intern env e ns name he => exact h.interned env e ns name
  | record env e => exact h.quiet (hslot _ rfl) le_rfl id
  | clearError env => exact h.quiet (hslot _ rfl) le_rfl id
  | newEnvironment env hempty => exact h.quiet (hslot _ rfl) le_rfl id
  | freeEnvironment env => exact h.quiet (hslot _ rfl) le_rfl id
  | release held => exact h.release held

theorem becomes (h : Recorded log st) (hbecomes : st.Becomes events after) :
    Recorded (log ++ events) after := by
  induction hbecomes with
  | refl => rwa [List.append_nil]
  | operate _ hop ih => rw [← List.append_assoc]; exact ih.operates hop

end Recorded

theorem Store.Becomes.recorded {log : List (Event β)} {st : Store β}
    (h : Store.Becomes {} log st) : Recorded log st :=
  Recorded.empty.becomes h

/-! ## What the log says of a closure -/

/-- The calls that go to the slot for `params` in `c`: those that are resolved to it, on any
path, and those that name the slot themselves. -/
inductive GoesTo (c : Callable) (params : List Value) (st : Store β) : Route β → Prop
  | resolved {source : Value} {xs : List Value} {route : Route β} : Carries source xs st route →
      st.resolution source xs = .enter c params → GoesTo c params st route
  | direct : GoesTo c params st fun run => c.enter run params st

/-- What comes of going to a slot with this first entry. -/
def Callable.enterFirst (run : Behaviour β) (c : Callable) (context : Context)
    (params : List Value) (st : Store β) : Option β → Outcome β
  | none => (.error (.invalidArity params.length c.describe), st)
  | some body =>
    let (result, after) := run body context.base params (st.claim 1)
    (c.report params.length result, after)

theorem GoesTo.eq_enter {c : Callable} {params : List Value} {st : Store β} {route : Route β}
    (h : GoesTo c params st route) (run : Behaviour β) : route run = c.enter run params st := by
  cases h with
  | resolved hcarries hresolution =>
    rw [hcarries.eq_perform, hresolution]
    rfl
  | direct => rfl

namespace Recorded

variable {log : List (Event β)} {st : Store β} {c d : Callable} {context : Context}

theorem body?_eq (h : Recorded log st) (hmade : .made c context ∈ log)
    (hheld : (st.callee? c).isSome) (hd : d.id = c.id) (slot : Nat) :
    st.body? d slot = firstEntry log c slot := by
  obtain ⟨callee, hcallee⟩ := Option.isSome_iff_exists.mp hheld
  rw [Store.body?, st.callee?_congr hd, hcallee, Option.bind_some]
  exact (h.holds hmade hcallee).2 slot

theorem context_eq (h : Recorded log st) (hmade : .made c context ∈ log)
    (hheld : (st.callee? c).isSome) : st.context c = context := by
  obtain ⟨callee, hcallee⟩ := Option.isSome_iff_exists.mp hheld
  rw [Store.context, hcallee]
  exact (h.holds hmade hcallee).1

theorem enter_eq (h : Recorded log st) (hmade : .made c context ∈ log)
    (hheld : (st.callee? c).isSome) (run : Behaviour β) (params : List Value) :
    c.enter run params st =
      c.enterFirst run context params st (firstEntry log c params.length) := by
  rw [Callable.enter, h.body?_eq hmade hheld rfl, h.context_eq hmade hheld]
  cases firstEntry log c params.length <;> rfl

/-- A closure hides the errors of its entries, so an arity error tells of an empty slot. -/
theorem invalidArity_iff (h : Recorded log st) (hmade : .made c context ∈ log)
    (hheld : (st.callee? c).isSome) (run : Behaviour β) (params : List Value) :
    (c.enter run params st).1 = .error (.invalidArity params.length c.describe) ↔
      firstEntry log c params.length = none := by
  rw [h.enter_eq hmade hheld]
  cases firstEntry log c params.length with
  | none => simp [Callable.enterFirst]
  | some body =>
    have hclosure := h.closure hmade
    simp only [Callable.enterFirst, Callable.report, hclosure, if_true]
    cases (run body context.base params (st.claim 1)).1 <;> simp

end Recorded

/-- After any history, for a closure that was made in it and is still held: it is the only one
behind its handles, and every handle has in each slot the entry that was offered first. An
installation is accepted exactly if the slot is there and still empty, and then fills that slot
alone; a builder takes entries for different slots. Across the boundary the target must be a
closure and the entry not null besides, and a refusal changes nothing. Whatever goes to a slot
runs the first entry with the context of the closure, and is an arity error exactly if there is
none. All this stays so after calls, on any path, whose bodies change the store as a history
does. -/
theorem entries_written_once {log : List (Event β)} {st : Store β} {c : Callable}
    {context : Context} (h : Store.Becomes {} log st) (hmade : .made c context ∈ log)
    (hheld : (st.callee? c).isSome) :
    (∀ d context', .made d context' ∈ log → d.id = c.id → d = c ∧ context' = context) ∧
    (∀ d slot, d.id = c.id → st.body? d slot = firstEntry log c slot) ∧
    (∀ slot body, (∃ after, st.install c slot body = .ok after) ↔
      slot ≤ maxParams ∧ firstEntry log c slot = none) ∧
    (∀ slot body after, st.install c slot body = .ok after → st.Fills c slot body after) ∧
    (∀ bodies : List (Nat × β), (∃ entries, ({} : Entries β).installAll bodies = .ok entries) ↔
      (bodies.map Prod.fst).Nodup ∧ ∀ slot ∈ bodies.map Prod.fst, slot ≤ maxParams) ∧
    (∀ f slot body, (∀ d, f = some (.callable d) → (st.callee? d).isSome) →
      let out := Boundary.installEntry f slot body st
      (out.1 = true ↔ ∃ d b, Boundary.Installable f body d b ∧ slot ≤ maxParams ∧
        st.body? d slot = none) ∧
      (out.1 = false → out.2 = st) ∧
      ∀ d b, Boundary.Installable f body d b → out.1 = true → st.Fills d slot b out.2) ∧
    (∀ params route, GoesTo c params st route → ∀ run : Behaviour β,
      route run = c.enterFirst run context params st (firstEntry log c params.length) ∧
      ((route run).1 = .error (.invalidArity params.length c.describe) ↔
        firstEntry log c params.length = none)) ∧
    ∀ run : Behaviour β, run.Lawful →
      (∀ source xs route, Carries source xs st route →
        ∃ events, Store.Becomes {} (log ++ events) (route run).2) ∧
      ∀ params, ∃ events, Store.Becomes {} (log ++ events) (c.enter run params st).2 := by
  have hrecorded := h.recorded
  have hbody : ∀ d slot, d.id = c.id → st.body? d slot = firstEntry log c slot :=
    fun d slot hd => hrecorded.body?_eq hmade hheld hd slot
  obtain ⟨callee, hcallee⟩ := Option.isSome_iff_exists.mp hheld
  refine ⟨fun d context' hd => hrecorded.unique hmade hd, hbody, fun slot body => ?_,
    fun slot body after => Store.fills_install, fun bodies => ?_, fun f slot body hlive => ?_,
    fun params route hroute run => ?_,
    fun run hrun => ⟨fun source xs route hcarries => ?_, fun params => ?_⟩⟩
  · rw [Store.exists_install_iff hcallee, hbody c slot rfl]
  · simp [Entries.exists_installAll_iff]
  · exact ⟨Boundary.installEntry_eq_true_iff hlive, Boundary.installEntry_effect⟩
  · rw [hroute.eq_enter]
    exact ⟨hrecorded.enter_eq hmade hheld run params,
      hrecorded.invalidArity_iff hmade hheld run params⟩
  · obtain ⟨events, hevents⟩ := Store.becomes_carries hrun hcarries
    exact ⟨events, h.trans hevents⟩
  · obtain ⟨events, hevents⟩ := Store.becomes_perform hrun (.enter c params) st
    exact ⟨events, h.trans hevents⟩

/-- A closure that is built with one entry, takes a second one from its host, and refuses a
third one across the boundary, since its slot is taken. -/
theorem entries_written_once_refused :
    let c : Callable := ⟨1, ⟨2⟩, .closure (some "f")⟩
    let context : Context := ⟨some 5, false⟩
    let log : List (Event Body) :=
      [.made c context, .offered c 0 .record, .offered c 2 .sum, .offered c 2 .fail]
    ∃ st : Store Body, Store.Becomes {} log st ∧ firstEntry log c 2 = some Body.sum ∧
      (¬ ∃ after, st.install c 2 .fail = .ok after) ∧
      (st.call Body.run (.callable c) [.integer 1, .integer 2]).1 = .ok (.integer 8) := by
  intro c context log
  let built : Entries Body := ⟨(Vector.replicate _ none).set 0 (some .record)⟩
  let made : Store Body := ((({} : Store Body).newCallable ⟨2⟩ (.closure (some "f"))
    { context, entries := built })).2
  let offered : Store Body := made.offer c 2 .sum
  let st : Store Body := (Boundary.installEntry (some (.callable c)) 2 (some .fail) offered).2
  have hbuilt : ({} : Entries Body).installAll [(0, .record)] = .ok built := rfl
  have hmade : Store.Operates {} [.made c context, .offered c 0 .record] made :=
    .closure ⟨2⟩ (some "f") hbuilt rfl
  have hoffered : made.Operates [.offered c 2 .sum] offered := .offer 2 Body.sum rfl rfl
  have hlive : ∀ d, some (Value.callable c) = some (.callable d) → (offered.callee? d).isSome := by
    intro d hd
    cases hd
    rfl
  have hst : offered.Operates [.offered c 2 .fail] st := .across 2 (some Body.fail) hlive
  have hhistory : Store.Becomes {} log st :=
    hmade.becomes.trans (hoffered.becomes.trans hst.becomes)
  have hfirst : firstEntry log c 2 = some Body.sum := rfl
  have honce := entries_written_once hhistory (List.mem_cons_self ..) rfl
  have hresolution : st.resolution (.callable c) [.integer 1, .integer 2] =
      .enter c [.integer 1, .integer 2] := by
    have hrest : ∀ k, ¬ c.arity.RestFrom k := fun k hk => absurd hk.1 (by decide)
    have hunpacked : c.arity.Unpacked 2 :=
      ⟨fun k hk => absurd hk (hrest k), fun hk => hrest 2 hk.1, fun hk => hrest 10 hk.1⟩
    rw [Store.resolution_callable, Arity.params_exact hunpacked (by decide)]
  have hcall := honce.2.2.2.2.2.2.1 [.integer 1, .integer 2]
    (fun run => st.call run (.callable c) [.integer 1, .integer 2])
    (.resolved (.called fun _ => .slice) hresolution) Body.run
  refine ⟨st, hhistory, hfirst, ?_, ?_⟩
  · rw [honce.2.2.1, hfirst]
    simp
  · rw [hcall.1]
    rfl

end ArityDispatch

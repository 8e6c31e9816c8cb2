import ArityDispatch.Proofs.Release.Calls
import ArityDispatch.Proofs.Release.Sessions
import ArityDispatch.Session.Command

/-!
# Commands keep sessions sound

Each command is a chain of moves. What it makes of a sound session extends it, and an object
that it answers is live. A closure is the only thing that can owe its context back, so the
commands that make one add the closure to what is owed, unless its context owes nothing.
-/

namespace ArityDispatch

/-- The context that a command hands over for a new closure. -/
def Command.context? : Command → Option Context
  | makeClosure _ _ context _ => some context
  | boundary (.newClosure bits context) => if bits = Arity.refused then none else some context
  | _ => none

/-- The context that a command hands over, with the identity that the closure will have. -/
def Session.handed (s : Session) (command : Command) : List (Nat × Context) :=
  (command.context?.map fun context => (s.store.next, context)).toList

/-- The closures among these that owe their context back. -/
def owed (given : List (Nat × Context)) : List Nat :=
  (given.filter fun g => g.2.owes).map Prod.fst

theorem owed_singleton (id : Nat) (context : Context) :
    owed [(id, context)] = if context.owes then [id] else [] := by
  cases h : context.owes <;> simp [owed, h]

namespace Boundary

variable {β : Type} {e : Environment} {st : Store β} {f : Option Value}

theorem installEntry_extends (hs : st.Sound) (slot : Nat) (body : Option β) :
    st.Extends (installEntry f slot body st).2 [] := by
  unfold installEntry
  split
  · next c body =>
    cases hc : c.isClosure with
    | false => exact .refl hs
    | true =>
      simp only [if_true]
      split
      · exact hs.install ‹_›
      · exact .refl hs
  · exact .refl hs

theorem bindRoot_extends {value : Option Value} (hs : st.Sound)
    (hvalue : ∀ v, value = some v → st.Live v) : st.Extends (bindRoot f value st).2 [] := by
  unfold bindRoot
  split
  · exact hs.bind _ (hvalue _ rfl)
  · exact .refl hs

theorem newClosure_extends (hs : st.Sound) (bits : UInt8) (context : Context) :
    st.Extends (newClosure bits context st).2
      (if bits = Arity.refused then [] else if context.owes then [st.next] else []) ∧
    ∀ v, (newClosure bits context st).1 = some v → (newClosure bits context st).2.Live v := by
  unfold newClosure
  by_cases hbits : bits = Arity.refused
  · simp only [hbits, if_true]
    exact ⟨.refl hs, nofun⟩
  · simp only [hbits, if_false]
    refine ⟨hs.newCallable .., fun v hv => ?_⟩
    exact Option.some.inj hv ▸ st.live_newCallable _ _ _

theorem vars_of_create (settings : Settings)
    (h : (Environment.create settings).toOption = some e) : e.vars = {} :=
  Environment.vars_of_create (eq_ok_of_toOption h)

theorem vars_newEnvironment {parse : String → Option Settings} {document : Option (List UInt8)}
    (h : newEnvironment parse document = some e) : e.vars = {} := by
  cases document with
  | none => exact vars_of_create {} h
  | some bytes =>
    obtain ⟨text, -, h⟩ := Option.bind_eq_some_iff.mp h
    obtain ⟨settings, -, h⟩ := Option.bind_eq_some_iff.mp h
    exact vars_of_create settings h

end Boundary

namespace Session

variable {s s' : Session} {r : Answer × Session} {v f : Value} {ds : List Nat}

/-- What comes of a command extends the session, and an object among it is live. -/
structure Keeps (s : Session) (r : Answer × Session) (ds : List Nat) : Prop where
  grows : s.Extends r.2 ds
  live : ∀ {v}, r.1.object? = some v → r.2.store.Live v

theorem Extends.keeps (h : s.Extends s' []) (hr : s'.Keeps r ds) : s.Keeps r ds where
  grows := h.trans hr.grows
  live := hr.live

/-- An answer that is no object. -/
theorem Extends.tells (h : s.Extends s' ds) {a : Answer} (ha : a.object? = none) :
    s.Keeps (a, s') ds where
  grows := h
  live hv := by
    rw [ha] at hv
    cases hv

/-- An answer without any move. -/
theorem Sound.tells (hs : s.Sound) {a : Answer} (ha : a.object? = none) : s.Keeps (a, s) [] :=
  (Extends.refl hs).tells ha

theorem Extends.gives (h : s.Extends s' ds) (hv : s'.store.Live v) :
    s.Keeps (.object v, s') ds where
  grows := h
  live hw := Option.some.inj hw ▸ hv

theorem Extends.givesPointer {p : Option Value} (h : s.Extends s' ds)
    (hp : ∀ v, p = some v → s'.store.Live v) : s.Keeps (.ofPointer p, s') ds := by
  cases p with
  | none => exact h.tells rfl
  | some v => exact h.gives (hp v rfl)

theorem Extends.givesResult {result : Except CallError Value} (h : s.Extends s' ds)
    (hresult : ∀ v, result = .ok v → s'.store.Live v) : s.Keeps (.ofResult result, s') ds := by
  cases result with
  | error e => exact h.tells rfl
  | ok v => exact h.gives (hresult v rfl)

/-! ## Requests -/

theorem Sound.atBoundary (hs : s.Sound) {env : Option String}
    {operation : String → Environment → Store Body → Outcome Body}
    (hop : ∀ {name e}, s.store.environment? name = some e →
      s.store.Safe (operation name e s.store))
    (h : s.atBoundary env operation = some r) : s.Keeps r [] := by
  obtain ⟨told, htold, rfl⟩ := Option.map_eq_some_iff.mp h
  have hsafe := Boundary.safe_perform hs.store hop htold
  exact (hs.withStore hsafe.grows).givesPointer fun _ => hsafe.live

theorem Sound.newEnvironment (hs : s.Sound) (env : String) {e : Environment} (h : e.vars = {}) :
    s.Extends (s.setEnvironment env e) [] :=
  hs.withStore (hs.store.setEnvironment env (Store.knows_of_no_vars h))

theorem Sound.serve (hs : s.Sound) {request : Request} (h : s.serve request = some r) :
    s.Keeps r (owed (s.handed (.boundary request))) := by
  cases request with
  | newEnvironment env document =>
    simp only [Session.serve] at h
    split at h
    · next e he =>
      cases h
      exact (hs.newEnvironment env (Boundary.vars_newEnvironment he)).tells rfl
    · cases h
      exact hs.tells rfl
  | freeEnvironment env =>
    cases env with
    | none =>
      cases h
      exact hs.tells rfl
    | some name =>
      cases h
      exact (hs.withStore (hs.store.freeEnvironment name)).tells rfl
  | lastError env =>
    cases env with
    | none =>
      cases h
      exact hs.tells rfl
    | some name =>
      obtain ⟨e, he, hr⟩ := Option.bind_eq_some_iff.mp h
      cases hr
      refine (hs.withStore (hs.store.clearError name)).tells ?_
      cases e.lastErrorText? <;> rfl
  | describeArity fixed variadic ambiguous =>
    cases h
    exact hs.tells rfl
  | newClosure bits context =>
    cases h
    obtain ⟨hgrows, hlive⟩ := Boundary.newClosure_extends hs.store bits context
    have howed : owed (s.handed (.boundary (.newClosure bits context))) =
        if bits = Arity.refused then [] else if context.owes then [s.store.next] else [] := by
      by_cases hbits : bits = Arity.refused
      · simp [handed, Command.context?, hbits, owed]
      · simp [handed, Command.context?, hbits, owed_singleton]
    exact howed ▸ (hs.withStore hgrows).givesPointer hlive
  | install f slot body =>
    obtain ⟨⟨p, s₁⟩, hp, hr⟩ := Option.bind_eq_some_iff.mp h
    cases hr
    obtain ⟨hext, -⟩ := hs.buildPointer hp
    have hinstall := Boundary.installEntry_extends (f := p) hext.sound.store slot body
    exact hext.keeps ((hext.sound.withStore hinstall).tells rfl)
  | call env f args =>
    obtain ⟨⟨p, s₁⟩, hp, h⟩ := Option.bind_eq_some_iff.mp h
    obtain ⟨⟨ps, s₂⟩, hps, h⟩ := Option.bind_eq_some_iff.mp h
    obtain ⟨hext, hf⟩ := hs.buildPointer hp
    obtain ⟨hext', hargs⟩ := hext.sound.buildPointers hps
    refine hext.keeps (hext'.keeps (hext'.sound.atBoundary (fun _ => ?_) h))
    exact Boundary.safe_call Body.safe_run hext'.sound.store
      (fun v hv => hext'.store.live (hf v hv)) hargs
  | apply env f collection =>
    obtain ⟨⟨p, s₁⟩, hp, h⟩ := Option.bind_eq_some_iff.mp h
    obtain ⟨⟨q, s₂⟩, hq, h⟩ := Option.bind_eq_some_iff.mp h
    obtain ⟨hext, hf⟩ := hs.buildPointer hp
    obtain ⟨hext', hcollection⟩ := hext.sound.buildPointer hq
    refine hext.keeps (hext'.keeps (hext'.sound.atBoundary (fun _ => ?_) h))
    exact Boundary.safe_apply Body.safe_run hext'.sound.store
      (fun v hv => hext'.store.live (hf v hv)) hcollection
  | newString bytes =>
    cases h
    refine (Extends.refl hs).givesPointer fun v hv => ?_
    obtain ⟨text, -, rfl⟩ := Option.map_eq_some_iff.mp hv
    exact Store.live_plain rfl rfl
  | copy v =>
    obtain ⟨⟨p, s₁⟩, hp, hr⟩ := Option.bind_eq_some_iff.mp h
    cases hr
    obtain ⟨hext, hlive⟩ := hs.buildPointer hp
    exact hext.givesPointer hlive
  | free name =>
    cases name with
    | none =>
      cases h
      exact hs.tells rfl
    | some name =>
      cases h
      exact (hs.drop name).tells rfl
  | freeString =>
    cases h
    exact hs.tells rfl
  | isTruthy v =>
    obtain ⟨⟨p, s₁⟩, hp, hr⟩ := Option.bind_eq_some_iff.mp h
    cases hr
    exact (hs.buildPointer hp).1.tells rfl
  | equal v w =>
    obtain ⟨⟨p, s₁⟩, hp, h⟩ := Option.bind_eq_some_iff.mp h
    obtain ⟨⟨q, s₂⟩, hq, hr⟩ := Option.bind_eq_some_iff.mp h
    cases hr
    obtain ⟨hext, -⟩ := hs.buildPointer hp
    exact hext.keeps ((hext.sound.buildPointer hq).1.tells rfl)
  | hash v =>
    obtain ⟨⟨p, s₁⟩, hp, hr⟩ := Option.bind_eq_some_iff.mp h
    cases hr
    exact (hs.buildPointer hp).1.tells rfl
  | readInteger v place =>
    obtain ⟨⟨p, s₁⟩, hp, hr⟩ := Option.bind_eq_some_iff.mp h
    cases hr
    exact (hs.buildPointer hp).1.tells rfl
  | intern env ns name =>
    exact hs.atBoundary (Boundary.safe_internVar hs.store) h
  | bindRoot v value =>
    obtain ⟨⟨p, s₁⟩, hp, h⟩ := Option.bind_eq_some_iff.mp h
    obtain ⟨⟨q, s₂⟩, hq, hr⟩ := Option.bind_eq_some_iff.mp h
    cases hr
    obtain ⟨hext, -⟩ := hs.buildPointer hp
    obtain ⟨hext', hvalue⟩ := hext.sound.buildPointer hq
    have hbind := Boundary.bindRoot_extends (f := p) hext'.sound.store hvalue
    exact hext.keeps (hext'.keeps ((hext'.sound.withStore hbind).tells rfl))
  | deref env v =>
    obtain ⟨⟨p, s₁⟩, hp, h⟩ := Option.bind_eq_some_iff.mp h
    obtain ⟨hext, -⟩ := hs.buildPointer hp
    exact hext.keeps (hext.sound.atBoundary (fun _ => Boundary.safe_deref hext.sound.store) h)

/-! ## Commands -/

theorem Sound.finishCall (hs : s.Sound) {out : Outcome Body} (h : s.store.Safe out) :
    s.Keeps (s.finishCall out) [] :=
  (hs.withStore h.grows).givesResult fun _ => h.live

theorem Sound.callBy (hs : s.Sound) {path : Path} {args : List Value} (hf : s.store.Live f)
    (hargs : ∀ v ∈ args, s.store.Live v) (h : s.callBy path f args = some r) : s.Keeps r [] := by
  have hclaim := hs.store.claim 1
  cases path with
  | fixed =>
    simp only [Session.callBy] at h
    split_ifs at h
    cases h
    exact hs.finishCall (Store.safe_callFixed Body.safe_run hs.store hf hargs)
  | rest =>
    simp only [Session.callBy] at h
    split_ifs at h
    cases h
    exact hs.finishCall (Store.safe_callRest Body.safe_run hs.store hf
      (fun v hv => hargs v (List.mem_of_mem_take hv)) fun v hv => hargs v (List.mem_of_mem_drop hv))
  | slice =>
    cases h
    exact hs.finishCall (Store.safe_call Body.safe_run hs.store hf hargs)
  | list =>
    cases h
    exact hs.finishCall (hclaim.safe (Store.safe_apply Body.safe_run hclaim.sound
      (hclaim.live hf) (Store.live_list (hclaim.lives hargs))))
  | vector =>
    cases h
    exact hs.finishCall (hclaim.safe (Store.safe_apply Body.safe_run hclaim.sound
      (hclaim.live hf) (Store.live_vector (hclaim.lives hargs))))
  | stream =>
    cases h
    rw [Store.callStream_eq_call]
    exact hs.finishCall (Store.safe_call Body.safe_run hs.store hf hargs)
  | direct =>
    simp only [Session.callBy] at h
    cases hc : f.callable? with
    | none =>
      rw [hc] at h
      cases h
      exact hs.tells rfl
    | some c =>
      simp only [hc] at h
      split_ifs at h
      cases h
      exact hs.finishCall (Store.safe_enter Body.safe_run c hs.store hargs)

theorem Sound.makeClosure (hs : s.Sound) (name : Option String) (arity : Arity)
    (context : Context) (entries : List (Nat × Body)) :
    s.Keeps (s.makeClosure name arity context entries) (owed [(s.store.next, context)]) := by
  rw [owed_singleton]
  unfold Session.makeClosure
  split
  · next installed _ =>
    exact (hs.withStore (hs.store.newCallable arity (.closure name)
      { context, entries := installed })).gives (s.store.live_newCallable _ _ _)
  · exact (hs.withStore (hs.store.newCallable arity (.closure name) { context })).tells rfl

theorem Sound.intern (hs : s.Sound) {env : String} {e : Environment}
    (he : s.environment? env = some e) (ns : Option String) (name : String) :
    let made := e.internIn s.store ns name
    s.Keeps (.interned (.var made.1) made.2.1.vars.size,
      s.withStore (made.2.2.setEnvironment env made.2.1)) [] := by
  obtain ⟨hgrows, hlive⟩ := hs.store.intern he (ns.getD e.settings.ns) name
  exact ⟨hs.withStore hgrows, fun hv => Option.some.inj hv ▸ hlive⟩

theorem Sound.execute (hs : s.Sound) {command : Command} (h : s.execute command = some r) :
    s.Keeps r (owed (s.handed command)) := by
  cases command with
  | make l =>
    obtain ⟨⟨v, s₁⟩, hv, hr⟩ := Option.bind_eq_some_iff.mp h
    cases hr
    obtain ⟨hext, hlive⟩ := hs.build hv
    exact hext.gives hlive
  | inspect l =>
    obtain ⟨⟨v, s₁⟩, hv, hr⟩ := Option.bind_eq_some_iff.mp h
    cases hr
    exact (hs.build hv).1.tells rfl
  | compare ls =>
    obtain ⟨⟨vs, s₁⟩, hvs, hr⟩ := Option.bind_eq_some_iff.mp h
    cases hr
    exact (hs.buildAll hvs).1.tells rfl
  | drop name =>
    cases h
    exact (hs.drop name).tells rfl
  | countReleases =>
    cases h
    exact hs.tells rfl
  | makeNative description arity entries =>
    simp only [Session.execute] at h
    split at h
    · next installed _ =>
      cases h
      exact (hs.withStore (hs.store.newCallable arity (.native description)
        { entries := installed })).gives (s.store.live_newCallable _ _ _)
    · cases h
  | makeClosure name arity context entries =>
    cases h
    exact hs.makeClosure name arity context entries
  | install f slot body =>
    obtain ⟨⟨f, s₁⟩, hf, h⟩ := Option.bind_eq_some_iff.mp h
    obtain ⟨c, -, h⟩ := Option.bind_eq_some_iff.mp h
    obtain ⟨hext, -⟩ := hs.build hf
    refine hext.keeps ?_
    split_ifs at h
    split at h
    · cases h
      exact (hext.sound.withStore (hext.sound.store.install ‹_›)).tells rfl
    · cases h
      exact hext.sound.tells rfl
  | viewClosure f =>
    obtain ⟨⟨f, s₁⟩, hf, h⟩ := Option.bind_eq_some_iff.mp h
    obtain ⟨c, -, h⟩ := Option.bind_eq_some_iff.mp h
    obtain ⟨callee, -, h⟩ := Option.bind_eq_some_iff.mp h
    split_ifs at h
    cases h
    exact (hs.build hf).1.tells rfl
  | call path f args =>
    obtain ⟨⟨f, s₁⟩, hf, h⟩ := Option.bind_eq_some_iff.mp h
    obtain ⟨⟨args, s₂⟩, hargs, h⟩ := Option.bind_eq_some_iff.mp h
    obtain ⟨hext, hlive⟩ := hs.build hf
    obtain ⟨hext', hall⟩ := hext.sound.buildAll hargs
    exact hext.keeps (hext'.keeps (hext'.sound.callBy (hext'.store.live hlive) hall h))
  | apply f collection =>
    obtain ⟨⟨f, s₁⟩, hf, h⟩ := Option.bind_eq_some_iff.mp h
    obtain ⟨⟨collection, s₂⟩, hcollection, h⟩ := Option.bind_eq_some_iff.mp h
    cases h
    obtain ⟨hext, hlive⟩ := hs.build hf
    obtain ⟨hext', hlive'⟩ := hext.sound.build hcollection
    exact hext.keeps (hext'.keeps (hext'.sound.finishCall
      (Store.safe_apply Body.safe_run hext'.sound.store (hext'.store.live hlive) hlive')))
  | makeVar ns name root =>
    obtain ⟨⟨root, s₁⟩, hroot, h⟩ := Option.bind_eq_some_iff.mp h
    cases h
    obtain ⟨hext, hlive⟩ := hs.buildPointer hroot
    have hnew := hext.sound.withStore (hext.sound.store.newVar ns name hlive)
    exact hext.keeps (hnew.gives (s₁.store.live_newVar _ _ _))
  | viewVar v =>
    obtain ⟨⟨v, s₁⟩, hv, h⟩ := Option.bind_eq_some_iff.mp h
    cases v with
    | var x =>
      cases h
      exact (hs.build hv).1.tells rfl
    | _ => cases h
  | bind v value =>
    obtain ⟨⟨v, s₁⟩, hv, h⟩ := Option.bind_eq_some_iff.mp h
    obtain ⟨⟨value, s₂⟩, hvalue, h⟩ := Option.bind_eq_some_iff.mp h
    obtain ⟨hext, -⟩ := hs.build hv
    obtain ⟨hext', hlive⟩ := hext.sound.build hvalue
    cases v with
    | var x =>
      cases h
      have hbind := hext'.sound.withStore (hext'.sound.store.bind x hlive)
      exact hext.keeps (hext'.keeps (hbind.tells rfl))
    | _ => cases h
  | deref v =>
    obtain ⟨⟨v, s₁⟩, hv, h⟩ := Option.bind_eq_some_iff.mp h
    obtain ⟨hext, -⟩ := hs.build hv
    cases v with
    | var x =>
      cases h
      exact hext.givesResult fun _ => Store.live_deref hext.sound.store
    | _ => cases h
  | intern env ns name =>
    obtain ⟨e, he, h⟩ := Option.bind_eq_some_iff.mp h
    cases h
    exact hs.intern he ns name
  | find env ns name =>
    obtain ⟨e, he, h⟩ := Option.bind_eq_some_iff.mp h
    cases h
    cases hfind : e.find? ns name with
    | none => exact hs.tells rfl
    | some v => exact (Extends.refl hs).gives (hs.store.live_named he hfind)
  | makeEnvironment env document =>
    simp only [Session.execute] at h
    split at h
    · next e he =>
      cases h
      cases hsettings : (document.map (Settings.ofText Settings.parse?)).getD (.ok {}) with
      | error err =>
        rw [hsettings] at he
        cases he
      | ok settings =>
        rw [hsettings] at he
        exact (hs.newEnvironment env (Environment.vars_of_create he)).tells rfl
    · cases h
      exact hs.tells rfl
  | viewEnvironment env =>
    obtain ⟨e, he, h⟩ := Option.bind_eq_some_iff.mp h
    cases h
    exact hs.tells rfl
  | recordError env error =>
    obtain ⟨e, he, h⟩ := Option.bind_eq_some_iff.mp h
    cases h
    exact (hs.withStore (hs.store.record env error)).tells rfl
  | takeError env =>
    obtain ⟨e, he, h⟩ := Option.bind_eq_some_iff.mp h
    cases h
    refine (hs.withStore (hs.store.clearError env)).tells ?_
    cases e.lastError <;> rfl
  | clearError env =>
    obtain ⟨e, he, h⟩ := Option.bind_eq_some_iff.mp h
    cases h
    exact (hs.withStore (hs.store.clearError env)).tells rfl
  | boundary request => exact hs.serve h

end Session

end ArityDispatch

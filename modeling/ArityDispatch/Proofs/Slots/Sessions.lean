import ArityDispatch.Proofs.Slots.Events
import ArityDispatch.Proofs.Slots.WrittenOnce

/-!
# Sessions are histories

The commands of a session change its store by the operations of a history and by nothing else,
and what they add to the log can be told before they are carried out. So whatever holds of all
histories holds of the store of every session.
-/

namespace ArityDispatch

namespace Store

variable {β : Type} {st : Store β}

theorem becomes_draw {n : Nat} (h : st.next ≤ n) : st.Becomes [] { st with next := n } := by
  have hclaim : { st with next := n } = st.claim (n - st.next) := by
    rw [claim, Nat.add_sub_cancel' h]
  exact hclaim ▸ (Operates.claim (n - st.next)).becomes

end Store

namespace Session

variable {s s' : Session} {v : Value}

/-! ## Values and pointers -/

theorem Sound.becomes_build (hs : s.Sound) {l : Literal} (h : s.build l = some (v, s')) :
    s.store.Becomes [] s'.store := by
  obtain ⟨next, rfl⟩ := build_drawn h
  exact Store.becomes_draw (hs.build h).1.store.next

theorem Sound.becomes_buildAll (hs : s.Sound) {ls : List Literal} {vs : List Value}
    (h : s.buildAll ls = some (vs, s')) : s.store.Becomes [] s'.store := by
  obtain ⟨next, rfl⟩ := buildAll_drawn h
  exact Store.becomes_draw (hs.buildAll h).1.store.next

theorem Sound.becomes_buildPointer (hs : s.Sound) {pointer : Pointer} {p : Option Value}
    (h : s.buildPointer pointer = some (p, s')) : s.store.Becomes [] s'.store := by
  obtain ⟨next, rfl⟩ := buildPointer_drawn h
  exact Store.becomes_draw (hs.buildPointer h).1.store.next

theorem Sound.becomes_buildPointers (hs : s.Sound) {pointers : List Pointer}
    {ps : List (Option Value)} (h : s.buildPointers pointers = some (ps, s')) :
    s.store.Becomes [] s'.store := by
  obtain ⟨next, rfl⟩ := buildPointers_drawn h
  exact Store.becomes_draw (hs.buildPointers h).1.store.next

/-! ## Requests -/

/-- The pointers of an operation are built before it begins. -/
theorem Sound.becomes_built (hs : s.Sound) {request : Request} {env : Option String}
    {operation : String → Environment → Store Body → Outcome Body}
    (h : s.operation? request = some (s', env, operation)) : s.store.Becomes [] s'.store := by
  cases request with
  | call env f args =>
    obtain ⟨⟨f, s₁⟩, hf, h⟩ := Option.bind_eq_some_iff.mp h
    obtain ⟨⟨args, s₂⟩, hargs, h⟩ := Option.bind_eq_some_iff.mp h
    cases h
    exact (hs.becomes_buildPointer hf).trans
      ((hs.buildPointer hf).1.sound.becomes_buildPointers hargs)
  | apply env f collection =>
    obtain ⟨⟨f, s₁⟩, hf, h⟩ := Option.bind_eq_some_iff.mp h
    obtain ⟨⟨collection, s₂⟩, hcollection, h⟩ := Option.bind_eq_some_iff.mp h
    cases h
    exact (hs.becomes_buildPointer hf).trans
      ((hs.buildPointer hf).1.sound.becomes_buildPointer hcollection)
  | intern env ns name =>
    cases h
    exact .refl
  | deref env v =>
    obtain ⟨⟨v, s₁⟩, hv, h⟩ := Option.bind_eq_some_iff.mp h
    cases h
    exact hs.becomes_buildPointer hv
  | _ => cases h

/-- An operation adds what its bodies add, and then its own error. -/
theorem Sound.becomes_operation (hs : s.Sound) {request : Request} {r : Answer × Session}
    {env : Option String} {operation : String → Environment → Store Body → Outcome Body}
    (hop : s.operation? request = some (s', env, operation)) (h : s.serve request = some r) :
    s.store.Becomes (s.toldAcross request ++ s.ownAcross request) r.2.store := by
  have hbuilt := hs.becomes_built hop
  obtain ⟨told, hworks, htold⟩ := works_of_operation hop
  rw [(asks_of_operation hop).serve] at h
  cases env with
  | none =>
    have hown : s.ownAcross request = [] := by
      rw [ownAcross_of_operation (by rw [hop]; rfl), failure?_eq_none hop rfl]
      rfl
    cases h
    rw [htold, hown]
    exact hbuilt
  | some name =>
    obtain ⟨⟨pointer, after⟩, hperform, rfl⟩ := Option.map_eq_some_iff.mp h
    obtain ⟨e, he, hbecomes⟩ := Store.becomes_boundary
      (fun _ he => hworks.keeps Body.frame_becomes he) hperform
    have hpresent : ((some name).bind s'.environment?).isSome = true := by
      rw [Option.bind_some, environment?, he]
      rfl
    rw [htold, if_pos hpresent, ownAcross_eq_own hop he]
    exact hbuilt.trans hbecomes

/-- A new closure, without entries or with those of its builder. -/
theorem operates_closure (s : Session) (arity : Arity) (name : Option String) (context : Context)
    {bodies : List (Nat × Body)} {entries : Entries Body}
    (h : ({} : Entries Body).installAll bodies = .ok entries) :
    let c : Callable := ⟨s.store.next, arity, .closure name⟩
    s.store.Operates (.made c context :: Event.built c bodies)
      (s.store.newCallable arity (.closure name) { context, entries }).2 :=
  .closure arity name h rfl

theorem becomes_newClosure (bits : UInt8) (context : Context) :
    s.store.Becomes (s.ownAcross (.newClosure bits context))
      (Boundary.newClosure bits context s.store).2 := by
  rw [ownAcross, Boundary.newClosure]
  split_ifs
  · exact .refl
  · have hempty : ({} : Entries Body).installAll [] = .ok {} := rfl
    exact (s.operates_closure ⟨bits⟩ none context hempty).becomes

/-- Whoever names a closure holds it. -/
theorem becomes_across {f : Option Value}
    (hf : ∀ v, f = some v → s.store.Live v) (slot : Nat) (body : Option Body) :
    s.store.Becomes (Event.across f slot body)
      (Boundary.installEntry f slot body s.store).2 := by
  have hheld : ∀ c, f = some (.callable c) → (s.store.callee? c).isSome := fun c hc =>
    Table.mem_keys_iff_isSome.mp (Store.live_callable.mp (hf _ hc))
  exact (Store.Operates.across slot body hheld).becomes

theorem Sound.becomes_serve (hs : s.Sound) {request : Request} {r : Answer × Session}
    (h : s.serve request = some r) :
    s.store.Becomes (s.toldAcross request ++ s.ownAcross request) r.2.store := by
  cases request with
  | newEnvironment env document =>
    simp only [Session.serve] at h
    split at h
    · next e he =>
      cases h
      simp only [toldAcross, ownAcross, he, Option.isSome_some, if_true]
      exact (Store.Operates.newEnvironment env (Boundary.lastError_newEnvironment he)).becomes
    · next he =>
      cases h
      simp only [toldAcross, ownAcross, he]
      exact .refl
  | freeEnvironment env =>
    cases env with
    | none =>
      cases h
      exact .refl
    | some env =>
      cases h
      exact (Store.Operates.freeEnvironment env).becomes
  | lastError env =>
    cases env with
    | none =>
      cases h
      exact .refl
    | some env =>
      obtain ⟨e, -, hr⟩ := Option.bind_eq_some_iff.mp h
      cases hr
      exact (Store.Operates.clearError env).becomes
  | describeArity fixed variadic ambiguous =>
    cases h
    exact .refl
  | newClosure bits context =>
    cases h
    exact becomes_newClosure bits context
  | install f slot body =>
    obtain ⟨⟨p, s₁⟩, hp, hr⟩ := Option.bind_eq_some_iff.mp h
    obtain ⟨hext, hlive⟩ := hs.buildPointer hp
    have hevents : s.toldAcross (.install f slot body) ++ s.ownAcross (.install f slot body) =
        Event.across p slot body := by
      simp only [toldAcross, ownAcross, hp, List.nil_append]
    have hinstall := becomes_across hlive slot body
    rw [hevents, ← Option.some.inj hr]
    exact (hs.becomes_buildPointer hp).trans hinstall
  | call env f' args' =>
    obtain ⟨⟨f, s₁⟩, hf, hr⟩ := Option.bind_eq_some_iff.mp h
    obtain ⟨⟨args, s₂⟩, hargs, -⟩ := Option.bind_eq_some_iff.mp hr
    have hop : s.operation? (.call env f' args') =
        some (s₂, env, fun _ _ => Boundary.call Body.run f args) := by
      simp [operation?, hf, hargs]
    exact hs.becomes_operation hop h
  | apply env f' collection' =>
    obtain ⟨⟨f, s₁⟩, hf, hr⟩ := Option.bind_eq_some_iff.mp h
    obtain ⟨⟨collection, s₂⟩, hcollection, -⟩ := Option.bind_eq_some_iff.mp hr
    have hop : s.operation? (.apply env f' collection') =
        some (s₂, env, fun _ _ => Boundary.apply Body.run f collection) := by
      simp [operation?, hf, hcollection]
    exact hs.becomes_operation hop h
  | newString bytes =>
    cases h
    exact .refl
  | copy v =>
    obtain ⟨⟨v, s₁⟩, hv, hr⟩ := Option.bind_eq_some_iff.mp h
    cases hr
    exact hs.becomes_buildPointer hv
  | free name => cases name <;> cases h <;> exact .refl
  | freeString =>
    cases h
    exact .refl
  | isTruthy v =>
    obtain ⟨⟨v, s₁⟩, hv, hr⟩ := Option.bind_eq_some_iff.mp h
    cases hr
    exact hs.becomes_buildPointer hv
  | equal v w =>
    obtain ⟨⟨v, s₁⟩, hv, hr⟩ := Option.bind_eq_some_iff.mp h
    obtain ⟨⟨w, s₂⟩, hw, hr⟩ := Option.bind_eq_some_iff.mp hr
    cases hr
    exact (hs.becomes_buildPointer hv).trans
      ((hs.buildPointer hv).1.sound.becomes_buildPointer hw)
  | hash v =>
    obtain ⟨⟨v, s₁⟩, hv, hr⟩ := Option.bind_eq_some_iff.mp h
    cases hr
    exact hs.becomes_buildPointer hv
  | readInteger v place =>
    obtain ⟨⟨v, s₁⟩, hv, hr⟩ := Option.bind_eq_some_iff.mp h
    cases hr
    exact hs.becomes_buildPointer hv
  | intern env ns name => exact hs.becomes_operation rfl h
  | bindRoot v value =>
    obtain ⟨⟨v, s₁⟩, hv, hr⟩ := Option.bind_eq_some_iff.mp h
    obtain ⟨⟨value, s₂⟩, hvalue, hr⟩ := Option.bind_eq_some_iff.mp hr
    have hbuilt := (hs.becomes_buildPointer hv).trans
      ((hs.buildPointer hv).1.sound.becomes_buildPointer hvalue)
    have hbind : s₂.store.Becomes [] (Boundary.bindRoot v value s₂.store).2 := by
      unfold Boundary.bindRoot
      split
      · exact (Store.Operates.bind _ _).becomes
      · exact .refl
    rw [← Option.some.inj hr]
    exact hbuilt.trans hbind
  | deref env v' =>
    obtain ⟨⟨v, s₁⟩, hv, -⟩ := Option.bind_eq_some_iff.mp h
    have hop : s.operation? (.deref env v') = some (s₁, env, fun _ _ => Boundary.deref v) := by
      simp [operation?, hv]
    exact hs.becomes_operation hop h

/-! ## Commands -/

theorem becomes_callBy {path : Path} {f : Value} {args : List Value} {r : Answer × Session}
    (h : s.callBy path f args = some r) :
    s.store.Becomes (toldBy s.store path f args) r.2.store := by
  have hcall := Store.callFrame_becomes.call Body.becomes_run f args
  unfold callBy at h
  cases path with
  | fixed =>
    dsimp only at h
    split_ifs at h with hlong
    cases h
    exact (Store.callFixed_eq_call Body.run f s.store (not_lt.mp hlong)).symm ▸ hcall s.store
  | rest =>
    dsimp only at h
    split_ifs at h with hshort
    cases h
    exact (Store.callRest_eq_call Body.run f s.store (not_lt.mp hshort)).symm ▸ hcall s.store
  | slice =>
    cases h
    exact hcall s.store
  | list =>
    cases h
    have hseq : (Value.list s.store.next args).seq? = .ok (.items args) := rfl
    exact (Store.Operates.claim 1).becomes.trans
      ((Store.apply_items Body.run f (s.store.claim 1) hseq).symm ▸ hcall (s.store.claim 1))
  | vector =>
    cases h
    have hseq : (Value.vector s.store.next args).seq? = .ok (.items args) := rfl
    exact (Store.Operates.claim 1).becomes.trans
      ((Store.apply_items Body.run f (s.store.claim 1) hseq).symm ▸ hcall (s.store.claim 1))
  | stream =>
    cases h
    exact (Store.callStream_eq_call Body.run f args s.store).symm ▸ hcall s.store
  | direct =>
    dsimp only [toldBy] at h ⊢
    cases hc : f.callable? with
    | none =>
      rw [hc] at h
      cases h
      exact .refl
    | some c =>
      simp only [hc] at h
      split_ifs at h
      cases h
      exact Store.callFrame_becomes.perform Body.becomes_run (.enter c args) s.store

theorem becomes_makeClosure (name : Option String) (arity : Arity) (context : Context)
    (entries : List (Nat × Body)) :
    s.store.Becomes (s.own (.makeClosure name arity context entries))
      (s.makeClosure name arity context entries).2.store := by
  cases hentries : ({} : Entries Body).installAll entries with
  | ok installed =>
    simp only [own, makeClosure, hentries]
    exact (s.operates_closure arity name context hentries).becomes
  | error e =>
    -- the builder gives up, and its closure stays without any entry until it is released
    have hempty : ({} : Entries Body).installAll [] = .ok {} := rfl
    simp only [own, makeClosure, hentries]
    exact (s.operates_closure arity name context hempty).becomes

/-- A host offers an entry as the boundary does, but is told why it is refused. -/
theorem becomes_install {c : Callable} (hclosure : c.isClosure = true)
    (hlive : s.store.Live (.callable c)) (slot : Nat) (body : Body) :
    s.store.Becomes (Event.across (some (.callable c)) slot (some body))
      (s.store.offer c slot body) := by
  have hinstallable : Boundary.Installable (some (.callable c)) (some body) c body :=
    ⟨rfl, hclosure, rfl⟩
  have hheld := Table.mem_keys_iff_isSome.mp (Store.live_callable.mp hlive)
  rw [Event.across_of_installable hinstallable]
  exact (Store.Operates.offer slot body hclosure hheld).becomes

theorem Sound.becomes_execute (hs : s.Sound) {command : Command} {r : Answer × Session}
    (h : s.execute command = some r) : s.store.Becomes (s.events command) r.2.store := by
  rw [events, h, Option.isSome_some, if_pos rfl]
  cases command with
  | make l =>
    obtain ⟨⟨v, s₁⟩, hv, hr⟩ := Option.bind_eq_some_iff.mp h
    cases hr
    exact hs.becomes_build hv
  | inspect l =>
    obtain ⟨⟨v, s₁⟩, hv, hr⟩ := Option.bind_eq_some_iff.mp h
    cases hr
    exact hs.becomes_build hv
  | compare ls =>
    obtain ⟨⟨vs, s₁⟩, hvs, hr⟩ := Option.bind_eq_some_iff.mp h
    cases hr
    exact hs.becomes_buildAll hvs
  | drop name =>
    cases h
    exact .refl
  | countReleases =>
    cases h
    exact .refl
  | makeNative description arity entries =>
    simp only [Session.execute] at h
    split at h
    · next installed _ =>
      cases h
      exact (Store.Operates.native arity description installed).becomes
    · cases h
  | makeClosure name arity context entries =>
    rw [← Option.some.inj h]
    exact becomes_makeClosure name arity context entries
  | install f slot body =>
    obtain ⟨⟨v, s₁⟩, hv, hrest⟩ := Option.bind_eq_some_iff.mp h
    obtain ⟨c, hc, hr⟩ := Option.bind_eq_some_iff.mp hrest
    obtain ⟨hext, hlive⟩ := hs.build hv
    have hcallable : v = .callable c := by
      cases v <;> cases hc
      rfl
    subst hcallable
    have hevents : s.nested (.install f slot body) ++ s.own (.install f slot body) =
        Event.across (some (.callable c)) slot (some body) := by
      simp only [nested, own, hv, List.nil_append]
    split_ifs at hr with hclosure
    have hstore : r.2.store = s₁.store.offer c slot body := by
      unfold Store.offer
      split at hr
      · next after hinstall =>
        cases hr
        rw [hinstall]
        rfl
      · next e hinstall =>
        cases hr
        rw [hinstall]
    rw [hevents, hstore]
    exact (hs.becomes_build hv).trans
      (becomes_install (by simpa using hclosure) hlive slot body)
  | viewClosure f =>
    obtain ⟨⟨f, s₁⟩, hf, h⟩ := Option.bind_eq_some_iff.mp h
    obtain ⟨c, -, h⟩ := Option.bind_eq_some_iff.mp h
    obtain ⟨callee, -, h⟩ := Option.bind_eq_some_iff.mp h
    split_ifs at h
    cases h
    exact hs.becomes_build hf
  | call path f' args' =>
    obtain ⟨⟨f, s₁⟩, hf, h⟩ := Option.bind_eq_some_iff.mp h
    obtain ⟨⟨args, s₂⟩, hargs, h⟩ := Option.bind_eq_some_iff.mp h
    have hbuilt := (hs.becomes_build hf).trans ((hs.build hf).1.sound.becomes_buildAll hargs)
    have hevents : s.nested (.call path f' args') = toldBy s₂.store path f args := by
      simp [nested, hf, hargs]
    rw [hevents]
    exact hbuilt.trans ((becomes_callBy h).trans .refl)
  | apply f' collection' =>
    obtain ⟨⟨f, s₁⟩, hf, h⟩ := Option.bind_eq_some_iff.mp h
    obtain ⟨⟨collection, s₂⟩, hcollection, h⟩ := Option.bind_eq_some_iff.mp h
    have hbuilt := (hs.becomes_build hf).trans ((hs.build hf).1.sound.becomes_build hcollection)
    have hevents : s.nested (.apply f' collection') =
        s₂.store.toldApply Body.journal f collection := by
      simp [nested, hf, hcollection]
    rw [hevents, ← Option.some.inj h]
    exact hbuilt.trans
      ((Store.callFrame_becomes.apply Body.becomes_run f collection s₂.store).trans .refl)
  | makeVar ns name root =>
    obtain ⟨⟨root, s₁⟩, hroot, h⟩ := Option.bind_eq_some_iff.mp h
    cases h
    exact (hs.becomes_buildPointer hroot).trans (Store.Operates.newVar ns name root).becomes
  | viewVar v =>
    obtain ⟨⟨v, s₁⟩, hv, hr⟩ := Option.bind_eq_some_iff.mp h
    cases v <;> cases hr
    exact hs.becomes_build hv
  | bind v value =>
    obtain ⟨⟨v, s₁⟩, hv, hrest⟩ := Option.bind_eq_some_iff.mp h
    obtain ⟨⟨value, s₂⟩, hvalue, hr⟩ := Option.bind_eq_some_iff.mp hrest
    have hbuilt := (hs.becomes_build hv).trans ((hs.build hv).1.sound.becomes_build hvalue)
    cases v with
    | var x =>
      cases hr
      exact hbuilt.trans (Store.Operates.bind x value).becomes
    | _ => cases hr
  | deref v =>
    obtain ⟨⟨v, s₁⟩, hv, hr⟩ := Option.bind_eq_some_iff.mp h
    cases v <;> cases hr
    exact hs.becomes_build hv
  | intern env ns name =>
    obtain ⟨e, he, hr⟩ := Option.bind_eq_some_iff.mp h
    have hinterned := (Store.Operates.intern (ns.getD e.settings.ns) name he).becomes
    cases hr
    exact hinterned
  | find env ns name =>
    obtain ⟨e, -, hr⟩ := Option.bind_eq_some_iff.mp h
    cases hr
    exact .refl
  | makeEnvironment env document =>
    simp only [Session.execute] at h
    cases hmade : ((document.map (Settings.ofText Settings.parse?)).getD (.ok {})).bind
        Environment.create with
    | ok e =>
      simp only [hmade] at h
      cases h
      have hempty : e.lastError = none := by
        cases hsettings : (document.map (Settings.ofText Settings.parse?)).getD (.ok {}) with
        | error err => simp [hsettings, Except.bind] at hmade
        | ok settings =>
          rw [hsettings] at hmade
          exact Environment.lastError_create hmade
      have hown : s.own (.makeEnvironment env document) = [.emptied env] := by
        simp only [own, makes, hmade]
        rfl
      rw [hown]
      exact (Store.Operates.newEnvironment env hempty).becomes
    | error err =>
      simp only [hmade] at h
      cases h
      have hown : s.own (.makeEnvironment env document) = [] := by
        simp only [own, makes, hmade]
        rfl
      rw [hown]
      exact .refl
  | viewEnvironment env =>
    obtain ⟨e, -, hr⟩ := Option.bind_eq_some_iff.mp h
    cases hr
    exact .refl
  | recordError env err =>
    obtain ⟨e, -, hr⟩ := Option.bind_eq_some_iff.mp h
    cases hr
    exact (Store.Operates.record env err).becomes
  | takeError env =>
    obtain ⟨e, -, hr⟩ := Option.bind_eq_some_iff.mp h
    cases hr
    exact (Store.Operates.clearError env).becomes
  | clearError env =>
    obtain ⟨e, -, hr⟩ := Option.bind_eq_some_iff.mp h
    cases hr
    exact (Store.Operates.clearError env).becomes
  | boundary request => exact hs.becomes_serve h

/-- After a command, what it leaves is settled, with a reference to its object or without one. -/
theorem after_eq_settle {command : Command} (keep : Option String) {r : Answer × Session}
    (h : s.execute command = some r) :
    ∃ kept : Session, kept.store = r.2.store ∧ s.after (command, keep) = kept.settle := by
  cases hv : r.1.object? with
  | none => exact ⟨r.2, rfl, by simp [after, step, h, hv]⟩
  | some v =>
    cases keep with
    | none => exact ⟨r.2, rfl, by simp [after, step, h]⟩
    | some name => exact ⟨r.2.hold name v, rfl, by simp [after, step, h, hv]⟩

theorem becomes_after (hs : s.Sound) (c : Command × Option String) :
    s.store.Becomes (s.events c.1) (s.after c).store := by
  obtain ⟨command, keep⟩ := c
  cases hr : s.execute command with
  | none =>
    have hstep : s.step command keep = none := Option.map_eq_none_iff.mpr hr
    rw [events, hr, after, hstep]
    exact .refl
  | some r =>
    obtain ⟨kept, hkept, hafter⟩ := after_eq_settle keep hr
    have hexecute := hs.becomes_execute hr
    have hop : kept.store.Operates [] kept.settle.store := .release kept.held
    rw [← hkept] at hexecute
    rw [hafter, ← List.append_nil (s.events command)]
    exact hexecute.trans hop.becomes

theorem Balanced.becomes_run {given : List (Nat × Context)} (h : s.Balanced given)
    (commands : List (Command × Option String)) :
    s.store.Becomes (s.log commands) (s.run commands).store := by
  induction commands generalizing s given with
  | nil => exact .refl
  | cons c rest ih => exact (becomes_after h.sound c).trans (ih (h.after c))

/-- The log of a whole session. It begins with the environment that is there at first. -/
def history (commands : List (Command × Option String)) : List (Event Body) :=
  .emptied mainEnvironment :: start.log commands

/-- The store of a session has the history that its commands tell. -/
theorem becomes_run (commands : List (Command × Option String)) :
    Store.Becomes {} (history commands) (start.run commands).store :=
  (Store.Operates.newEnvironment mainEnvironment rfl).becomes.trans
    (Balanced.start.becomes_run commands)

/-- A closure that a session still has is as the commands of the session tell: its context was
given when it was made, and every slot has the entry that was offered first. -/
theorem callee?_run {commands : List (Command × Option String)} {c : Callable} {context : Context}
    {callee : Callee Body} (hmade : .made c context ∈ history commands)
    (hcallee : (start.run commands).store.callee? c = some callee) :
    callee.context = context ∧
      ∀ slot, callee.entries.get? slot = firstEntry (history commands) c slot :=
  (becomes_run commands).recorded.holds hmade hcallee

end Session

end ArityDispatch

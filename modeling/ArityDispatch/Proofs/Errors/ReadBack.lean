import ArityDispatch.Proofs.Errors.History
import ArityDispatch.Proofs.Errors.Terminable

/-!
# Reading errors back

An operation that answers null has left its error in the environment that it was given. The next
read takes the text out of the slot and hands it out with a zero as its end mark; a text that
holds a zero cannot be handed out so, and by then the slot is already empty. So a failure can be
read back exactly if the text that its message is made around holds no zero, and otherwise it is
lost: a namespace from the settings may hold any character.
-/

namespace ArityDispatch.Session

variable {s : Session} {name : String}

/-! ## Environments stay -/

/-- The bodies of the language free no environment. -/
theorem frame_present (name : String) : Body.Frame fun (st : Store Body) _ after =>
    (st.environment? name).isSome → (after.environment? name).isSome where
  claim _ _ h := h
  trans h h' := h' ∘ h
  bind _ _ _ h := h
  record st env e h := by
    rw [Store.environment?_record]
    split_ifs
    · rwa [Option.isSome_map]
    · exact h
  intern {st env e} ns varName he h := by
    have hsame : (e.intern st ns varName).2.2.environment? name = st.environment? name := by
      unfold Environment.intern
      cases e.find? ns varName <;> rfl
    rw [Store.environment?_setEnvironment, hsame]
    split_ifs
    · rfl
    · exact h

/-! ## Reads -/

/-- A failing operation ends with leaving its error, in an environment that is still there. -/
theorem serve_of_failure {request : Request} {r : Answer × Session} {e : CallError}
    (h : s.serve request = some r) (hfailure : s.failure? request = some (name, e)) :
    ∃ before : Store Body, (before.environment? name).isSome ∧
      r.2.store = before.record name e := by
  obtain ⟨hop, hgiven⟩ := environment_of_failure hfailure
  obtain ⟨⟨built, env, operation⟩, hop⟩ := Option.isSome_iff_exists.mp hop
  have hasks := asks_of_operation hop
  obtain rfl : env = some name := hasks.environment.symm.trans hgiven
  rw [hasks.serve] at h
  obtain ⟨finished, hperform, rfl⟩ := Option.map_eq_some_iff.mp h
  obtain ⟨d, hd, rfl⟩ := Option.map_eq_some_iff.mp hperform
  rw [failure?_eq hop hd] at hfailure
  obtain ⟨told, hworks, -⟩ := works_of_operation hop
  have hpresent := hworks.keeps (frame_present name) hd (by rw [hd]; rfl)
  revert hfailure hpresent
  rcases operation name d built.store with ⟨result, before⟩
  intro hfailure hpresent
  cases result with
  | ok v => cases hfailure
  | error err =>
    cases hfailure
    exact ⟨before, hpresent, rfl⟩

/-- A failed operation has left its error in its environment. -/
theorem slot_of_failure {request : Request} {keep : Option String} {answer : Answer} {e : CallError}
    (h : s.step (.boundary request) keep = some (answer, s'))
    (hfailure : s.failure? request = some (name, e)) :
    (s'.environment? name).isSome ∧ s'.slot? name = some e.message := by
  obtain ⟨⟨told, after⟩, hexecute, hend⟩ := Option.map_eq_some_iff.mp h
  obtain rfl : told = answer := congrArg Prod.fst hend
  obtain ⟨s'', hstep, hsame⟩ := environments_step hexecute keep
  obtain ⟨-, rfl⟩ := Prod.mk.inj (Option.some.inj (h.symm.trans hstep))
  obtain ⟨before, hpresent, hafter⟩ := serve_of_failure hexecute hfailure
  obtain ⟨d, hd⟩ := Option.isSome_iff_exists.mp hpresent
  have hrecorded : s'.environment? name = some (d.record e) := by
    have hleft : s'.environment? name = (before.record name e).environment? name :=
      congrArg (·.get? name) (hafter ▸ hsame)
    rw [hleft, Store.environment?_record, if_pos rfl, hd, Option.map_some]
  exact ⟨by rw [hrecorded]; rfl, Store.slot?_eq hrecorded⟩

/-- A read empties the slot, whether it hands out the text or not. -/
theorem step_lastError (h : (s.environment? name).isSome) (keep : Option String) :
    ∃ read, s.step (.boundary (.lastError (some name))) keep =
        some (((s.slot? name).filter Text.isTerminable).elim .null .text, read) ∧
      read.slot? name = none ∧ (read.environment? name).isSome := by
  obtain ⟨e, he⟩ := Option.isSome_iff_exists.mp h
  have hslot : s.slot? name = e.lastError := Store.slot?_eq he
  have hexecute : s.execute (.boundary (.lastError (some name))) =
      some (((s.slot? name).filter Text.isTerminable).elim .null .text,
        s.withStore (s.store.clearError name)) := by
    rw [hslot, execute, serve, he]
    simp only [Option.bind_eq_bind, Option.bind_some, Environment.lastErrorText?]
    cases e.lastError.filter Text.isTerminable <;> rfl
  obtain ⟨read, hstep, hsame⟩ := environments_step hexecute keep
  have hread : read.environment? name = some e.clearError := by
    have hcleared : read.environment? name = (s.store.clearError name).environment? name :=
      congrArg (·.get? name) hsame
    have henv : s.store.environment? name = some e := he
    rw [hcleared, Store.environment?_clearError, if_pos rfl, henv, Option.map_some]
  exact ⟨read, hstep, Store.slot?_eq hread, by rw [hread]; rfl⟩

/-- In any session, an operation of the boundary that is given an environment and answers null
has an error. If the text that the error is made around holds no zero, the next read of that
environment answers the message, otherwise it answers null. The read after it answers null. -/
theorem failures_read_back {after : Session} {request : Request} {keep : Option String}
    (hop : (s.operation? request).isSome) (hgiven : request.environment? = some name)
    (h : s.step (.boundary request) keep = some (.null, after)) :
    ∃ e, s.failure? request = some (name, e) ∧ ∀ keep, ∃ read,
      after.step (.boundary (.lastError (some name))) keep =
        some (if Text.isTerminable e.subject then .text e.message else .null, read) ∧
      ∀ keep, ∃ last,
        read.step (.boundary (.lastError (some name))) keep = some (.null, last) := by
  obtain ⟨e, hfailure, -⟩ := (ownAcross_of_answer hop hgiven h).2 rfl
  obtain ⟨hpresent, hslot⟩ := slot_of_failure h hfailure
  refine ⟨e, hfailure, fun keep => ?_⟩
  obtain ⟨read, hread, hempty, hstill⟩ := step_lastError hpresent keep
  refine ⟨read, ?_, fun keep => ?_⟩
  · rw [hread, hslot, ← e.isTerminable_message, Option.filter_some]
    split_ifs <;> rfl
  · obtain ⟨last, hlast, -, -⟩ := step_lastError hstill keep
    rw [hempty] at hlast
    exact ⟨last, hlast⟩

/-- A name is interned and looked up before it has a root. -/
theorem failures_read_back_unbound :
    let s := start.run [(.boundary (.intern (some "rt") none (some [120])), some "v")]
    let request : Request := .deref (some "rt") (some (.handle "v"))
    ∃ after read, s.step (.boundary request) none = some (.null, after) ∧
      after.step (.boundary (.lastError (some "rt"))) none =
        some (.text "unbound var: user/x", read) := by
  intro s request
  have hanswer : (s.step (.boundary request) none).map Prod.fst = some .null := rfl
  obtain ⟨⟨answer, after⟩, hstep, rfl⟩ := Option.map_eq_some_iff.mp hanswer
  obtain ⟨e, hfailure, hreads⟩ := failures_read_back rfl rfl hstep
  obtain ⟨read, hread, -⟩ := hreads none
  have he : e = .unboundVar "user/x" := by
    have hfound : s.failure? request = some ("rt", .unboundVar "user/x") := rfl
    rw [hfound] at hfailure
    exact (Prod.mk.inj (Option.some.inj hfailure)).2.symm
  rw [he] at hread
  exact ⟨after, read, hstep, hread⟩

/-- The settings `default_namespace = "a\u0000b"`, as bytes. -/
def zeroNamespace : List UInt8 :=
  [100, 101, 102, 97, 117, 108, 116, 95, 110, 97, 109, 101, 115, 112, 97, 99, 101, 32, 61, 32, 34,
    97, 92, 117, 48, 48, 48, 48, 98, 34]

theorem newEnvironment_zeroNamespace :
    Boundary.newEnvironment Settings.parse? (some zeroNamespace) =
      some { settings := { ns := "a\x00b" } } := by
  have htext : Text.ofTerminated? zeroNamespace =
      some "default_namespace = \"a\\u0000b\"" := rfl
  have hsettings : Settings.ofText Settings.parse? "default_namespace = \"a\\u0000b\"" =
      .ok { ns := "a\x00b" } := rfl
  simp only [Boundary.newEnvironment, htext, hsettings, Option.bind_eq_bind, Option.bind_some,
    Except.toOption]
  rfl

/-- A session that knows the unbound name `x` in that namespace. -/
def zeroSession (lastError : Option String) : Session :=
  let v : Var := ⟨1, "a\x00b", "x"⟩
  let environment : Environment :=
    { settings := { ns := "a\x00b" }, vars := ⟨[(("a\x00b", "x"), v)]⟩, lastError }
  { store := { roots := ⟨[(1, none)]⟩, environments := ⟨[("rt", environment)]⟩, next := 2 }
    handles := ⟨[("v", .var v)]⟩ }

/-- A failure that cannot be read back. The settings give a namespace with a zero, a name of it
is interned and looked up: the lookup fails and answers null, and so does the next read. -/
theorem failure_lost_behind_zero :
    let s := start.run
      [(.boundary (.newEnvironment "rt" (some zeroNamespace)), none),
        (.boundary (.intern (some "rt") none (some [120])), some "v")]
    let request : Request := .deref (some "rt") (some (.handle "v"))
    s.failure? request = some ("rt", .unboundVar "a\x00b/x") ∧
      ∃ after read, s.step (.boundary request) none = some (.null, after) ∧
        after.step (.boundary (.lastError (some "rt"))) none = some (.null, read) := by
  intro s request
  let made : Session :=
    { store := { environments := ⟨[("rt", { settings := { ns := "a\x00b" } })]⟩ } }
  have hmade : start.step (.boundary (.newEnvironment "rt" (some zeroNamespace))) none =
      some (.done, made) := by
    simp only [step, execute, serve, newEnvironment_zeroNamespace]
    rfl
  have hinterned : made.step
      (.boundary (.intern (some "rt") none (some [120]))) (some "v") =
      some (.object (.var ⟨1, "a\x00b", "x"⟩), zeroSession none) := by rfl
  have hs : s = zeroSession none := by
    simp only [s, run, List.foldl_cons, List.foldl_nil, hmade, hinterned, Option.map_some,
      Option.getD_some]
  rw [hs]
  have hfailure : (zeroSession none).failure? request =
      some ("rt", .unboundVar "a\x00b/x") := by rfl
  have hstep : (zeroSession none).step (.boundary request) none =
      some (.null, zeroSession (some "unbound var: a\x00b/x")) := by rfl
  have hpresent : ((zeroSession (some "unbound var: a\x00b/x")).environment? "rt").isSome := by rfl
  obtain ⟨read, hread, -⟩ := step_lastError hpresent none
  exact ⟨hfailure, _, read, hstep, hread⟩

end ArityDispatch.Session

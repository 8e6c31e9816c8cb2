import ArityDispatch.Proofs.Errors.Slot
import ArityDispatch.Proofs.Slots.Sessions

/-!
# The history of the last error

The slot of an environment is decided by the last event of a session that works on it, whatever
else has been done in between and however many environments there are. A command adds the events
of the bodies that it enters and then its own. Its own are none for the slot if it is given no
environment, a null pointer or another environment, or if it is an operation that succeeds. The
bodies add what they do across the boundary, and nothing else: an error that is raised and
dropped by calls inside, at any depth, is no event.
-/

namespace ArityDispatch

namespace Session

/-- The text in the slot of an environment. -/
def slot? (s : Session) (name : String) : Option String := s.store.slot? name

variable {s s' : Session} {name : String}

/-! ## Operations -/

/-- A request that works for an environment answers null exactly if it fails. -/
theorem answer_operation {request : Request} {env : String} {keep : Option String}
    {answer : Answer} (hop : (s.operation? request).isSome) (henv : request.environment? = some env)
    (h : s.step (.boundary request) keep = some (answer, s')) :
    match s.failure? request with
    | some (failed, _) => failed = env ∧ answer = .null
    | none => answer ≠ .null := by
  obtain ⟨⟨built, env', operation⟩, hop⟩ := Option.isSome_iff_exists.mp hop
  have hasks := asks_of_operation hop
  obtain rfl : env' = some env := hasks.environment.symm.trans henv
  obtain ⟨r, hr, hstep⟩ := Option.map_eq_some_iff.mp h
  have hanswer : r.1 = answer := (Prod.mk.inj hstep).1
  rw [execute, hasks.serve] at hr
  obtain ⟨finished, hperform, rfl⟩ := Option.map_eq_some_iff.mp hr
  obtain ⟨e, he, rfl⟩ := Option.map_eq_some_iff.mp hperform
  rw [failure?_eq hop he, ← hanswer]
  cases hout : operation env e built.store with
  | mk result rest => cases result <;> simp [Boundary.finish, Answer.ofPointer]

/-- A request fails for the environment that it is given. -/
theorem environment_of_failure {request : Request} {env : String} {e : CallError}
    (h : s.failure? request = some (env, e)) :
    (s.operation? request).isSome ∧ request.environment? = some env := by
  cases hop : s.operation? request with
  | none => simp [failure?, hop] at h
  | some asked =>
    obtain ⟨built, given, operation⟩ := asked
    cases hpresent : given.bind built.environment? with
    | none => simp [failure?_eq_none hop hpresent] at h
    | some before =>
      obtain ⟨name, rfl, hbefore⟩ := Option.bind_eq_some_iff.mp hpresent
      rw [failure?_eq hop hbefore] at h
      split at h
      · cases h
      · cases h
        exact ⟨rfl, (asks_of_operation hop).environment⟩

/-- An operation for an environment has an event exactly if it answers null. -/
theorem ownAcross_of_answer {request : Request} {keep : Option String} {answer : Answer}
    (hop : (s.operation? request).isSome) (henv : request.environment? = some name)
    (h : s.step (.boundary request) keep = some (answer, s')) :
    (answer ≠ .null → s.ownAcross request = []) ∧
      (answer = .null → ∃ e, s.failure? request = some (name, e) ∧
        s.ownAcross request = [.raised name e]) := by
  have hanswer := answer_operation hop henv h
  rw [ownAcross_of_operation hop]
  cases hfailure : s.failure? request with
  | none =>
    rw [hfailure] at hanswer
    exact ⟨fun _ => rfl, fun hnull => absurd hnull hanswer⟩
  | some failure =>
    obtain ⟨env, e⟩ := failure
    simp only [hfailure] at hanswer
    obtain ⟨rfl, hnull⟩ := hanswer
    exact ⟨fun hne => absurd hnull hne, fun _ => ⟨e, rfl, rfl⟩⟩

/-- Both calls of `7` fail, and both bodies give `nil`. Only the call that is made across the
boundary leaves its error. -/
example :
    let entered (body : Body) : Session := start.run
      [(.makeNative "f" ⟨1⟩ [(1, body)], some "f"),
        (.call .slice (.handle "f") [.integer 7], some "v")]
    ((entered (.reenter "rt")).slot? "rt" = some "invalid call with 0 args to: 7" ∧
      (entered (.reenter "rt")).handles.get? "v" = some .nil) ∧
    (entered .attempt).slot? "rt" = none ∧ (entered .attempt).handles.get? "v" = some .nil :=
  ⟨⟨rfl, rfl⟩, rfl, rfl⟩

end Session

end ArityDispatch

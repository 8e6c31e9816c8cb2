import ArityDispatch.Proofs.Release.Contexts
import ArityDispatch.Proofs.Slots.Journals

/-!
# What a command adds to a history

Before a command is carried out it can be told what it will add to the log. First come the
events of the bodies that it enters, if it is a call, and then its own. The commands that make
closures or offer entries have such events, and so have those that work on the slot for errors
of an environment: recording, taking, reading and clearing an error, making or freeing the
environment, and an operation across the boundary that fails. A command that is not answered
adds nothing.
-/

namespace ArityDispatch

/-- The environment that a request is given. Most requests take none, and the pointer may be
null. -/
def Request.environment? : Request → Option String
  | newEnvironment env _ => some env
  | freeEnvironment env | lastError env | call env _ _ | apply env _ _ | intern env _ _
  | deref env _ => env
  | _ => none

namespace Session

/-! ## Operations across the boundary -/

/-- The operation that a request asks for, if it works for an environment: the session when all
pointers are there, the environment and what to do. -/
def operation? (s : Session) : Request → Option
    (Session × Option String × (String → Environment → Store Body → Outcome Body))
  | .call env f args => do
    let (f, s) ← s.buildPointer f
    let (args, s) ← s.buildPointers args
    some (s, env, fun _ _ => Boundary.call Body.run f args)
  | .apply env f collection => do
    let (f, s) ← s.buildPointer f
    let (collection, s) ← s.buildPointer collection
    some (s, env, fun _ _ => Boundary.apply Body.run f collection)
  | .intern env ns name => some (s, env, Boundary.internVar ns name)
  | .deref env v => do
    let (v, s) ← s.buildPointer v
    some (s, env, fun _ _ => Boundary.deref v)
  | _ => none

/-- The environment for which a request fails, and its error. -/
def failure? (s : Session) (request : Request) : Option (String × CallError) := do
  let (s, env, operation) ← s.operation? request
  let name ← env
  let e ← s.environment? name
  match (operation name e s.store).1 with
  | .ok _ => none
  | .error err => some (name, err)

/-! ## Events -/

/-- What the bodies of a call add that is made in this way. -/
def toldBy (st : Store Body) (path : Path) (f : Value) (args : List Value) : List (Event Body) :=
  match path with
  | .fixed | .rest | .slice | .stream => (st.resolution f args).told Body.journal st
  | .list | .vector => ((st.claim 1).resolution f args).told Body.journal (st.claim 1)
  | .direct =>
    match f.callable? with
    | some c => (Resolution.enter c args).told Body.journal st
    | none => []

/-- What the bodies of a request add. Without an environment nothing runs. -/
def toldAcross (s : Session) : Request → List (Event Body)
  | .call env f args =>
    (do
      let (f, s) ← s.buildPointer f
      let (args, s) ← s.buildPointers args
      let _ ← env.bind s.environment?
      some (Boundary.told Body.journal f args s.store)).getD []
  | .apply env f collection =>
    (do
      let (f, s) ← s.buildPointer f
      let (collection, s) ← s.buildPointer collection
      let _ ← env.bind s.environment?
      some (Boundary.toldApply Body.journal f collection s.store)).getD []
  | _ => []

/-- What the bodies add that a command enters. -/
def nested (s : Session) : Command → List (Event Body)
  | .call path f args =>
    (do
      let (f, s) ← s.build f
      let (args, s) ← s.buildAll args
      some (toldBy s.store path f args)).getD []
  | .apply f collection =>
    (do
      let (f, s) ← s.build f
      let (collection, s) ← s.build collection
      some (s.store.toldApply Body.journal f collection)).getD []
  | .boundary request => s.toldAcross request
  | _ => []

/-- Whether a host gets an environment for a document. -/
def makes (document : Option String) : Bool :=
  (((document.map (Settings.ofText Settings.parse?)).getD (.ok {})).bind Environment.create).isOk

/-- The event of a request itself. -/
def ownAcross (s : Session) : Request → List (Event Body)
  | .newClosure bits context =>
    if bits = Arity.refused then [] else [.made ⟨s.store.next, ⟨bits⟩, .closure none⟩ context]
  | .install f slot body =>
    match s.buildPointer f with
    | some (f, _) => Event.across f slot body
    | none => []
  | .newEnvironment env document =>
    if (Boundary.newEnvironment Settings.parse? document).isSome then [.emptied env] else []
  | .freeEnvironment (some env) | .lastError (some env) => [.emptied env]
  | request => (s.failure? request).toList.map fun f => .raised f.1 f.2

/-- What a command itself adds, apart from the bodies that it enters. -/
def own (s : Session) : Command → List (Event Body)
  | .makeClosure name arity context entries =>
    let c : Callable := ⟨s.store.next, arity, .closure name⟩
    match ({} : Entries Body).installAll entries with
    | .ok _ => .made c context :: Event.built c entries
    | .error _ => [.made c context]
  | .install f slot body =>
    match s.build f with
    | some (v, _) => Event.across (some v) slot (some body)
    | none => []
  | .recordError env e => [.raised env e]
  | .takeError env | .clearError env => [.emptied env]
  | .makeEnvironment env document => if makes document then [.emptied env] else []
  | .boundary request => s.ownAcross request
  | _ => []

/-- What a command adds to the log. -/
def events (s : Session) (command : Command) : List (Event Body) :=
  if (s.execute command).isSome then s.nested command ++ s.own command else []

/-- The log of a run. -/
def log (s : Session) : List (Command × Option String) → List (Event Body)
  | [] => []
  | c :: rest => s.events c.1 ++ (s.after c).log rest

variable {s s' : Session}

/-! ## Operations that a request asks for -/

/-- What there is to know of the operation that a request asks for. -/
structure Asks (s : Session) (request : Request) (s' : Session) (env : Option String)
    (operation : String → Environment → Store Body → Outcome Body) : Prop where
  drawn : ∃ n, s' = s.drawn n
  environment : request.environment? = env
  serve : s.serve request = s'.atBoundary env operation

theorem asks_of_operation {request : Request} {env : Option String}
    {operation : String → Environment → Store Body → Outcome Body}
    (h : s.operation? request = some (s', env, operation)) : s.Asks request s' env operation := by
  cases request with
  | call env f args =>
    obtain ⟨⟨f, s₁⟩, hf, h⟩ := Option.bind_eq_some_iff.mp h
    obtain ⟨⟨args, s₂⟩, hargs, h⟩ := Option.bind_eq_some_iff.mp h
    cases h
    refine ⟨?_, rfl, by simp [Session.serve, hf, hargs]⟩
    obtain ⟨n, rfl⟩ := buildPointer_drawn hf
    obtain ⟨m, rfl⟩ := buildPointers_drawn hargs
    exact ⟨m, rfl⟩
  | apply env f collection =>
    obtain ⟨⟨f, s₁⟩, hf, h⟩ := Option.bind_eq_some_iff.mp h
    obtain ⟨⟨collection, s₂⟩, hcollection, h⟩ := Option.bind_eq_some_iff.mp h
    cases h
    refine ⟨?_, rfl, by simp [Session.serve, hf, hcollection]⟩
    obtain ⟨n, rfl⟩ := buildPointer_drawn hf
    obtain ⟨m, rfl⟩ := buildPointer_drawn hcollection
    exact ⟨m, rfl⟩
  | intern env ns name =>
    cases h
    exact ⟨⟨s.store.next, rfl⟩, rfl, rfl⟩
  | deref env v =>
    obtain ⟨⟨v, s₁⟩, hv, h⟩ := Option.bind_eq_some_iff.mp h
    cases h
    exact ⟨buildPointer_drawn hv, rfl, by simp [Session.serve, hv]⟩
  | _ => cases h

/-- The operations that work for an environment, and what their bodies add. -/
inductive Works (st : Store Body) :
    (String → Environment → Store Body → Outcome Body) → List (Event Body) → Prop
  | call (f : Option Value) (args : List (Option Value)) :
      Works st (fun _ _ => Boundary.call Body.run f args) (Boundary.told Body.journal f args st)
  | apply (f collection : Option Value) :
      Works st (fun _ _ => Boundary.apply Body.run f collection)
        (Boundary.toldApply Body.journal f collection st)
  | intern (ns name : Option (List UInt8)) : Works st (Boundary.internVar ns name) []
  | deref (v : Option Value) : Works st (fun _ _ => Boundary.deref v) []

theorem works_of_operation {request : Request} {env : Option String}
    {operation : String → Environment → Store Body → Outcome Body}
    (h : s.operation? request = some (s', env, operation)) :
    ∃ told, Works s'.store operation told ∧
      s.toldAcross request = if (env.bind s'.environment?).isSome then told else [] := by
  cases request with
  | call env f args =>
    obtain ⟨⟨f, s₁⟩, hf, h⟩ := Option.bind_eq_some_iff.mp h
    obtain ⟨⟨args, s₂⟩, hargs, h⟩ := Option.bind_eq_some_iff.mp h
    cases h
    refine ⟨_, .call f args, ?_⟩
    cases hpresent : env.bind s'.environment? <;> simp [toldAcross, hf, hargs, hpresent]
  | apply env f collection =>
    obtain ⟨⟨f, s₁⟩, hf, h⟩ := Option.bind_eq_some_iff.mp h
    obtain ⟨⟨collection, s₂⟩, hcollection, h⟩ := Option.bind_eq_some_iff.mp h
    cases h
    refine ⟨_, .apply f collection, ?_⟩
    cases hpresent : env.bind s'.environment? <;> simp [toldAcross, hf, hcollection, hpresent]
  | intern env ns name =>
    cases h
    exact ⟨[], .intern ns name, (ite_self _).symm⟩
  | deref env v =>
    obtain ⟨⟨v, s₁⟩, -, h⟩ := Option.bind_eq_some_iff.mp h
    cases h
    exact ⟨[], .deref v, (ite_self _).symm⟩
  | _ => cases h

/-- Whatever bodies keep, an operation keeps. -/
theorem Works.keeps {R : Store Body → List (Event Body) → Store Body → Prop} (hR : Body.Frame R)
    {st : Store Body} {operation : String → Environment → Store Body → Outcome Body}
    {told : List (Event Body)} (h : Works st operation told) {env : String} {e : Environment}
    (he : st.environment? env = some e) : R st told (operation env e st).2 := by
  cases h with
  | call f args => exact hR.boundaryCall hR.keeps_run f args st
  | apply f collection => exact hR.boundaryApply hR.keeps_run f collection st
  | intern ns name =>
    unfold Boundary.internVar
    split
    · exact hR.intern _ _ he
    all_goals exact hR.refl st
  | deref v =>
    dsimp only [Boundary.deref]
    split <;> exact hR.refl st

/-- Without an entry that comes back, an operation enters no body that adds anything. -/
theorem Works.told_eq_nil {st : Store Body} (hst : st.StaysInside)
    {operation : String → Environment → Store Body → Outcome Body} {told : List (Event Body)}
    (h : Works st operation told) : told = [] := by
  cases h with
  | call f args =>
    unfold Boundary.told
    split
    · exact hst.told_eq_nil _
    · rfl
  | apply f collection =>
    unfold Boundary.toldApply
    split
    · exact hst.toldApply_eq_nil _ _
    · rfl
  | intern ns name => rfl
  | deref v => rfl

/-! ## Failing operations -/

theorem ownAcross_of_operation {request : Request} (h : (s.operation? request).isSome) :
    s.ownAcross request = (s.failure? request).toList.map fun f => .raised f.1 f.2 := by
  cases request <;> first | rfl | cases h

/-- An operation that is given no environment, or one that there is not. -/
theorem failure?_eq_none {request : Request} {env : Option String}
    {operation : String → Environment → Store Body → Outcome Body}
    (h : s.operation? request = some (s', env, operation))
    (henv : env.bind s'.environment? = none) :
    s.failure? request = none := by
  cases env with
  | none => simp [failure?, h]
  | some name =>
    have hmissing : s'.environment? name = none := henv
    simp [failure?, h, hmissing]

theorem failure?_eq {request : Request} {env : String} {e : Environment}
    {operation : String → Environment → Store Body → Outcome Body}
    (h : s.operation? request = some (s', some env, operation))
    (he : s'.environment? env = some e) :
    s.failure? request =
      match (operation env e s'.store).1 with
      | .ok _ => none
      | .error err => some (env, err) := by
  simp [failure?, h, he]

theorem ownAcross_eq_own {request : Request} {env : String} {e : Environment}
    {operation : String → Environment → Store Body → Outcome Body}
    (h : s.operation? request = some (s', some env, operation))
    (he : s'.environment? env = some e) :
    s.ownAcross request = Event.own env (operation env e s'.store).1 := by
  rw [ownAcross_of_operation (by rw [h]; rfl), failure?_eq h he]
  cases (operation env e s'.store).1 <;> rfl

end Session

end ArityDispatch

import ArityDispatch.Session.Request

/-!
# Commands

What a host program can do in a session: make values, vars and callables, call them in
every way there is, intern and look up names, read errors back, and send requests across
the embedding boundary. After each command whatever is not held any more is given up. A
command that names a handle or an environment that there is not has no answer.
-/

namespace ArityDispatch

/-- The ways to hand over a list of arguments. -/
inductive Path where
  /-- One by one, at most ten. -/
  | fixed
  /-- Ten one by one and a rest list, which may be empty. -/
  | rest
  | slice
  | list
  | vector
  | stream
  /-- To the entry for their number, whatever the descriptor says. -/
  | direct
deriving DecidableEq, Repr, Inhabited

inductive Command where
  | make (l : Literal)
  | inspect (l : Literal)
  | compare (ls : List Literal)
  | drop (name : String)
  | countReleases
  | makeNative (description : String) (arity : Arity) (entries : List (Nat × Body))
  | makeClosure (name : Option String) (arity : Arity) (context : Context)
      (entries : List (Nat × Body))
  | install (f : Literal) (slot : Nat) (body : Body)
  | viewClosure (f : Literal)
  | call (path : Path) (f : Literal) (args : List Literal)
  | apply (f collection : Literal)
  | makeVar (ns name : String) (root : Option Literal)
  | viewVar (v : Literal)
  | bind (v value : Literal)
  | deref (v : Literal)
  | intern (env : String) (ns : Option String) (name : String)
  | find (env : String) (ns name : String)
  | makeEnvironment (env : String) (document : Option String)
  | viewEnvironment (env : String)
  | recordError (env : String) (e : CallError)
  | takeError (env : String)
  | clearError (env : String)
  /-- An operation of the embedding boundary. -/
  | boundary (r : Request)
deriving Repr, Inhabited

namespace Session

/-- Takes over the outcome of a call. -/
def finishCall (s : Session) (outcome : Outcome Body) : Answer × Session :=
  (.ofResult outcome.1, { s with store := outcome.2 })

/-- Calls `f` in the given way. Too few or too many arguments for a way are no call. -/
def callBy (s : Session) (path : Path) (f : Value) (args : List Value) :
    Option (Answer × Session) :=
  let st := s.store
  match path with
  | .fixed =>
    if maxParams < args.length then none
    else some (s.finishCall (st.callFixed Body.run f args))
  | .rest =>
    if args.length < maxParams then none
    else some (s.finishCall
      (st.callRest Body.run f (args.take maxParams) (args.drop maxParams)))
  | .slice => some (s.finishCall (st.call Body.run f args))
  | .list => some (s.finishCall ((st.claim 1).apply Body.run f (.list st.next args)))
  | .vector => some (s.finishCall ((st.claim 1).apply Body.run f (.vector st.next args)))
  | .stream => some (s.finishCall (st.callStream Body.run f args))
  | .direct =>
    match f.callable? with
    | none => some (.notCallable, s)
    | some c =>
      if maxParams < args.length then none
      else some (s.finishCall (c.enter Body.run args st))

/-- Makes a closure and installs its entries. If one is refused, the closure is left
without a handle. -/
def makeClosure (s : Session) (name : Option String) (arity : Arity) (context : Context)
    (entries : List (Nat × Body)) : Answer × Session :=
  match ({} : Entries Body).installAll entries with
  | .ok entries =>
    let (c, st) := s.store.newCallable arity (.closure name) { context, entries }
    (.object (.callable c), s.withStore st)
  | .error e =>
    let (_, st) := s.store.newCallable arity (.closure name) { context }
    (.error e, s.withStore st)

/-- What a command answers, before anything is given up. -/
def execute (s : Session) (command : Command) : Option (Answer × Session) :=
  match command with
  | .make l => do
    let (v, s) ← s.build l
    some (.object v, s)
  | .inspect l => do
    let (v, s) ← s.build l
    some (.inspected v, s)
  | .compare ls => do
    let (vs, s) ← s.buildAll ls
    some (.compared vs, s)
  | .drop name =>
    some (.flag (s.handles.get? name).isSome, { s with handles := s.handles.erase name })
  | .countReleases => some (.count s.released.length, s)
  | .makeNative description arity entries =>
    match ({} : Entries Body).installAll entries with
    | .ok entries =>
      let (c, st) := s.store.newCallable arity (.native description) { entries }
      some (.object (.callable c), s.withStore st)
    | .error _ => none
  | .makeClosure name arity context entries => some (s.makeClosure name arity context entries)
  | .install f slot body => do
    let (f, s) ← s.build f
    let c ← f.callable?
    if !c.isClosure then none
    else
      match s.store.install c slot body with
      | .ok st => some (.installed slot, s.withStore st)
      | .error e => some (.error e, s)
  | .viewClosure f => do
    let (f, s) ← s.build f
    let c ← f.callable?
    let callee ← s.store.callee? c
    if !c.isClosure then none
    else some (.closureView ⟨c, callee.context, callee.entries.installed⟩, s)
  | .call path f args => do
    let (f, s) ← s.build f
    let (args, s) ← s.buildAll args
    s.callBy path f args
  | .apply f collection => do
    let (f, s) ← s.build f
    let (collection, s) ← s.build collection
    some (s.finishCall (s.store.apply Body.run f collection))
  | .makeVar ns name root => do
    let (root, s) ← s.buildPointer root
    let (v, st) := s.store.newVar ns name root
    some (.object (.var v), s.withStore st)
  | .viewVar v => do
    match ← s.build v with
    | (.var v, s) => some (.varView v (s.store.root? v).isSome, s)
    | _ => none
  | .bind v value => do
    let (v, s) ← s.build v
    let (value, s) ← s.build value
    match v with
    | .var v => some (.bound, s.withStore (s.store.bind v value))
    | _ => none
  | .deref v => do
    match ← s.build v with
    | (.var v, s) => some (.ofResult (s.store.deref v), s)
    | _ => none
  | .intern env ns name => do
    let e ← s.environment? env
    let (v, e, st) := e.internIn s.store ns name
    some (.interned (.var v) e.vars.size, s.withStore (st.setEnvironment env e))
  | .find env ns name => do
    let e ← s.environment? env
    some (((e.find? ns name).map fun v => Answer.object (.var v)).getD .absent, s)
  | .makeEnvironment env document =>
    let settings := (document.map (Settings.ofText Settings.parse?)).getD (.ok {})
    match settings.bind Environment.create with
    | .ok e => some (.done, s.setEnvironment env e)
    | .error e => some (.settingsError e, s)
  | .viewEnvironment env => do
    let e ← s.environment? env
    some (.environmentView e.settings e.vars.size, s)
  | .recordError env error => do
    let _ ← s.environment? env
    some (.error error, s.withStore (s.store.record env error))
  | .takeError env => do
    let e ← s.environment? env
    some ((e.lastError.map Answer.text).getD .absent, s.withStore (s.store.clearError env))
  | .clearError env => do
    let _ ← s.environment? env
    some (.done, s.withStore (s.store.clearError env))
  | .boundary r => s.serve r

/-- One command. An answer that is an object is held under the name `keep`, if there is
one, and then whatever is not held is given up. -/
def step (s : Session) (command : Command) (keep : Option String) :
    Option (Answer × Session) :=
  (s.execute command).map fun r =>
    let kept :=
      match r.1.object?, keep with
      | some v, some name => r.2.hold name v
      | _, _ => r.2
    (r.1, kept.settle)

/-- Giving up what is not held leaves the environments as the command does. -/
theorem environments_step {s s' : Session} {command : Command} {answer : Answer}
    (h : s.execute command = some (answer, s')) (keep : Option String) :
    ∃ s'', s.step command keep = some (answer, s'') ∧
      s''.store.environments = s'.store.environments := by
  refine ⟨_, by rw [step, h]; rfl, ?_⟩
  simp only [settle, Store.environments_release]
  split <;> rfl

/-- The state after a run of commands; those without an answer change nothing. -/
def run (s : Session) (commands : List (Command × Option String)) : Session :=
  commands.foldl (fun s c => ((s.step c.1 c.2).map Prod.snd).getD s) s

end Session

end ArityDispatch

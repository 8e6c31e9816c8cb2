import ArityDispatch.Proofs.Vars.PlainMap
import ArityDispatch.Session.Command

/-!
# Programs with vars in a session

What a `VarHost` does by one operation, a session does by one command: the one that says the
operation, with names for handles. The stores agree afterwards, the answer tells the reply, and a
new handle is the object of the answer.
-/

namespace ArityDispatch

/-- The session has the store of the host, and holds its handles under these names. -/
structure Session.Shows (s : Session) (handle : Nat → String) (h : VarHost Body) : Prop where
  store : s.store = h.store
  handles : ∀ i, s.handles.get? (handle i) = (h.handles[i]?).map Value.var

/-- The command that says an operation. Values are written as literals that the session has. -/
inductive VarOperation.Says (s : Session) (handle : Nat → String) : VarOperation → Command → Prop
  | intern (env : String) (ns : Option String) (name : String) :
      Says s handle (.intern env ns name) (.intern env ns name)
  | internText (env : String) (ns name : Option (List UInt8)) :
      Says s handle (.internText env ns name) (.boundary (.intern (some env) ns name))
  | find (env ns name : String) : Says s handle (.find env ns name) (.find env ns name)
  | make (ns name : String) {pointer : Pointer} {root : Option Value} :
      s.buildPointer pointer = some (root, s) →
      Says s handle (.make ns name root) (.makeVar ns name pointer)
  | copy (i : Nat) : Says s handle (.copy i) (.make (.handle (handle i)))
  | bind (i : Nat) {l : Literal} {value : Value} : s.build l = some (value, s) →
      Says s handle (.bind i value) (.bind (.handle (handle i)) l)
  | bindPointer (i : Option Nat) {pointer : Pointer} {value : Option Value} :
      s.buildPointer pointer = some (value, s) →
      Says s handle (.bindPointer i value)
        (.boundary (.bindRoot (i.map fun i => .handle (handle i)) pointer))
  | deref (i : Nat) : Says s handle (.deref i) (.deref (.handle (handle i)))
  | derefPointer (env : String) (i : Option Nat) :
      Says s handle (.derefPointer env i)
        (.boundary (.deref (some env) (i.map fun i => .handle (handle i))))

/-- The answer tells a host this reply, which comes with these new handles. Across the boundary
only the result is told, not its error. -/
inductive Answer.Tells : Answer → VarReply → List Var → Prop
  | handle {answer : Answer} {v : Var} : answer.object? = some (.var v) → Tells answer .handle [v]
  | absent : Tells .absent .absent []
  | bound : Tells .bound (.bound true) []
  | flag (done : Bool) : Tells (.flag done) (.bound done) []
  | result (r : Except CallError Value) : Tells (.ofResult r) (.result r) []
  | pointer (r : Except CallError Value) : Tells (.ofPointer r.toOption) (.result r) []

/-- A command without an answer says an operation that is not done. Otherwise the session ends
with the store of the host, and tells what the host is told. -/
def Session.Does (s : Session) (command : Command) (h : VarHost Body) (op : VarOperation) : Prop :=
  match s.execute command with
  | none => h.step op = (.unanswered, h)
  | some (answer, s') => s' = s.withStore (h.step op).2.store ∧
      ∃ given, (h.step op).2.handles = h.handles ++ given ∧ answer.Tells (h.step op).1 given

theorem Boundary.internVar_result {β : Type} (ns name : Option (List UInt8)) (env : String)
    (e : Environment) (st : Store β) :
    (∃ v, (internVar ns name env e st).1 = .ok (.var v)) ∨
      ∃ err, (internVar ns name env e st).1 = .error err := by
  unfold internVar
  split
  · exact .inl ⟨_, rfl⟩
  all_goals exact .inr ⟨_, rfl⟩

namespace Session

variable {s : Session} {handle : Nat → String} {h : VarHost Body}

theorem Shows.build_handle (hs : s.Shows handle h) (i : Nat) :
    s.build (.handle (handle i)) = (h.handles[i]?).map fun v => (.var v, s) := by
  have hbuild : s.build (.handle (handle i)) = (s.handles.get? (handle i)).map fun v => (v, s) := by
    cases hget : s.handles.get? (handle i) <;> simp [build, Literal.build, hget]
  rw [hbuild, hs.handles, Option.map_map]
  rfl

theorem Shows.buildPointer_handle (hs : s.Shows handle h) (i : Option Nat) :
    s.buildPointer (i.map fun i => .handle (handle i)) = (h.pointer i).map fun p => (p, s) := by
  cases i with
  | none => rfl
  | some i =>
    simp only [Option.map_some, buildPointer, hs.build_handle, VarHost.pointer, Option.map_map]
    rfl

/-- What a host does by an operation, a session does by the command that says it. -/
theorem Shows.does (hs : s.Shows handle h) {op : VarOperation} {command : Command}
    (hop : op.Says s handle command) : s.Does command h op := by
  unfold Does
  have henv : ∀ env, s.environment? env = h.store.environment? env := fun env => by
    rw [Session.environment?, hs.store]
  have hsame : s = s.withStore h.store := by rw [← hs.store]; rfl
  cases hop with
  | intern env ns name =>
    simp only [Session.execute, VarHost.step, henv, hs.store]
    cases h.store.environment? env with
    | none => rfl
    | some e => exact ⟨rfl, [_], rfl, .handle rfl⟩
  | internText env ns name =>
    simp only [Session.execute, serve, atBoundary, Boundary.perform, VarHost.step, hs.store]
    cases h.store.environment? env with
    | none => rfl
    | some e =>
      simp only [Option.map_some, Boundary.finish_fst]
      rcases Boundary.internVar_result ns name env e h.store with ⟨v, hv⟩ | ⟨err, herr⟩
      · simp only [hv]
        exact ⟨rfl, [v], rfl, .handle rfl⟩
      · simp only [herr]
        exact ⟨trivial, [], (List.append_nil _).symm, .pointer (.error err)⟩
  | find env ns name =>
    simp only [Session.execute, VarHost.step, henv]
    cases h.store.environment? env with
    | none => rfl
    | some e =>
      simp only [Option.bind_eq_bind, Option.bind_some]
      cases e.find? ns name with
      | none => exact ⟨hsame, [], (List.append_nil _).symm, .absent⟩
      | some v => exact ⟨hsame, [v], rfl, .handle rfl⟩
  | make ns name hroot =>
    simp only [Session.execute, VarHost.step, hroot, Option.bind_eq_bind, Option.bind_some,
      hs.store]
    exact ⟨rfl, [_], rfl, .handle rfl⟩
  | copy i =>
    simp only [Session.execute, VarHost.step, hs.build_handle]
    cases h.handles[i]? with
    | none => rfl
    | some v => exact ⟨hsame, [v], rfl, .handle rfl⟩
  | bind i hvalue =>
    simp only [Session.execute, VarHost.step, hs.build_handle]
    cases h.handles[i]? with
    | none => rfl
    | some v =>
      simp only [Option.map_some, Option.bind_eq_bind, Option.bind_some, hvalue, hs.store]
      exact ⟨trivial, [], (List.append_nil _).symm, .bound⟩
  | bindPointer i hvalue =>
    simp only [Session.execute, serve, VarHost.step, hs.buildPointer_handle]
    cases h.pointer i with
    | none => rfl
    | some p =>
      simp only [Option.map_some, Option.bind_eq_bind, Option.bind_some, hvalue, hs.store]
      exact ⟨trivial, [], (List.append_nil _).symm, .flag _⟩
  | deref i =>
    simp only [Session.execute, VarHost.step, hs.build_handle]
    cases h.handles[i]? with
    | none => rfl
    | some v =>
      simp only [Option.map_some, Option.bind_eq_bind, Option.bind_some, hs.store]
      exact ⟨hsame, [], (List.append_nil _).symm, .result _⟩
  | derefPointer env i =>
    simp only [Session.execute, serve, atBoundary, Boundary.perform, VarHost.step,
      hs.buildPointer_handle]
    cases h.pointer i with
    | none => rfl
    | some p =>
      simp only [Option.map_some, Option.bind_eq_bind, Option.bind_some, hs.store]
      cases h.store.environment? env with
      | none => rfl
      | some e =>
        simp only [Option.map_some, Boundary.finish_fst]
        exact ⟨trivial, [], (List.append_nil _).symm, .pointer _⟩

end Session

end ArityDispatch

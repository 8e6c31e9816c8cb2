import ArityDispatch.Session.Answer
import ArityDispatch.Session.State
import ArityDispatch.Settings.Document

/-!
# Requests

What an embedder can ask for across the boundary. Every pointer of a request may be null,
and every text is a byte string with an end mark. A request for an environment names it;
without a name the environment is a null pointer, and then nothing happens.
-/

namespace ArityDispatch

/-- A pointer that is written down: null, or a literal. -/
abbrev Pointer := Option Literal

inductive Request where
  | newEnvironment (env : String) (document : Option (List UInt8))
  | freeEnvironment (env : Option String)
  | lastError (env : Option String)
  | describeArity (fixed : UInt8) (variadic ambiguous : Bool)
  | newClosure (bits : UInt8) (context : Context)
  | install (f : Pointer) (slot : Nat) (body : Option Body)
  | call (env : Option String) (f : Pointer) (args : List Pointer)
  | apply (env : Option String) (f collection : Pointer)
  | newString (bytes : Option (List UInt8))
  | copy (v : Pointer)
  | free (name : Option String)
  | freeString
  | isTruthy (v : Pointer)
  | equal (v w : Pointer)
  | hash (v : Pointer)
  | readInteger (v : Pointer) (place : Option Int64)
  | intern (env : Option String) (ns name : Option (List UInt8))
  | bindRoot (v value : Pointer)
  | deref (env : Option String) (v : Pointer)
deriving Repr, Inhabited

namespace Session

/-- Performs an operation that works for an environment. -/
def atBoundary (s : Session) (env : Option String)
    (operation : String → Environment → Store Body → Outcome Body) : Option (Answer × Session) :=
  (Boundary.perform env operation s.store).map fun r => (.ofPointer r.1, s.withStore r.2)

/-- What a request answers. -/
def serve (s : Session) (request : Request) : Option (Answer × Session) :=
  match request with
  | .newEnvironment env document =>
    match Boundary.newEnvironment Settings.parse? document with
    | some e => some (.done, s.setEnvironment env e)
    | none => some (.null, s)
  | .freeEnvironment env =>
    match env with
    | none => some (.done, s)
    | some name => some (.done, s.withStore (s.store.freeEnvironment name))
  | .lastError env =>
    match env with
    | none => some (.null, s)
    | some name => do
      let e ← s.environment? name
      some ((e.lastErrorText?.map Answer.text).getD .null, s.withStore (s.store.clearError name))
  | .describeArity fixed variadic ambiguous =>
    some (.descriptor (Boundary.describeArity fixed variadic ambiguous), s)
  | .newClosure bits context =>
    let (v, st) := Boundary.newClosure bits context s.store
    some (.ofPointer v, s.withStore st)
  | .install f slot body => do
    let (f, s) ← s.buildPointer f
    let (ok, st) := Boundary.installEntry f slot body s.store
    some (.flag ok, s.withStore st)
  | .call env f args => do
    let (f, s) ← s.buildPointer f
    let (args, s) ← s.buildPointers args
    s.atBoundary env fun _ _ => Boundary.call Body.run f args
  | .apply env f collection => do
    let (f, s) ← s.buildPointer f
    let (collection, s) ← s.buildPointer collection
    s.atBoundary env fun _ _ => Boundary.apply Body.run f collection
  | .newString bytes => some (.ofPointer (Boundary.newString bytes), s)
  | .copy v => do
    let (v, s) ← s.buildPointer v
    some (.ofPointer v, s)
  | .free name =>
    match name with
    | none => some (.done, s)
    | some name => some (.done, { s with handles := s.handles.erase name })
  | .freeString => some (.done, s)
  | .isTruthy v => do
    let (v, s) ← s.buildPointer v
    some (.flag (Boundary.isTruthy v), s)
  | .equal v w => do
    let (v, s) ← s.buildPointer v
    let (w, s) ← s.buildPointer w
    some (.flag (Boundary.equal v w), s)
  | .hash v => do
    let (v, s) ← s.buildPointer v
    some (.hash (Boundary.hash v), s)
  | .readInteger v place => do
    let (v, s) ← s.buildPointer v
    let (ok, place) := Boundary.readInteger v place
    some (.integerRead ok place, s)
  | .intern env ns name => s.atBoundary env (Boundary.internVar ns name)
  | .bindRoot v value => do
    let (v, s) ← s.buildPointer v
    let (value, s) ← s.buildPointer value
    let (ok, st) := Boundary.bindRoot v value s.store
    some (.flag ok, s.withStore st)
  | .deref env v => do
    let (v, s) ← s.buildPointer v
    s.atBoundary env fun _ _ => Boundary.deref v

end Session

end ArityDispatch

import ArityDispatch.Call
import ArityDispatch.Value.Hashing

/-!
# The embedding boundary

Embedders pass pointers, which may be null, and texts as byte strings with an end mark,
which may be null or no text at all. Each operation judges what it is given from left to
right, blames the first bad argument and then does nothing else. Operations that work for
an environment leave their error there; the others only tell that they failed.

The body of an entry is an embedder too: it may ask for any of these operations while the one
that it runs for is not over. An operation leaves its own error last.
-/

namespace ArityDispatch.Boundary

variable {β : Type}

def require {α : Type} (pointer : Option α) (parameter : String) : Except CallError α :=
  match pointer with
  | some a => .ok a
  | none => .error (.nullPointer parameter)

/-- The arguments of a call from number `i` on. -/
def requireArgs (i : Nat) : List (Option Value) → Except CallError (List Value)
  | [] => .ok []
  | pointer :: rest => do
    let v ← require pointer ("a" ++ toString i)
    let vs ← requireArgs (i + 1) rest
    pure (v :: vs)

def requireText (bytes : Option (List UInt8)) (parameter : String) : Except CallError String := do
  let bytes ← require bytes parameter
  match Text.ofTerminated? bytes with
  | some s => pure s
  | none => throw .invalidUtf8

/-! ## Operations for an environment -/

def call (run : Behaviour β) (f : Option Value) (args : List (Option Value)) (st : Store β) :
    Outcome β :=
  match require f "callee", requireArgs 1 args with
  | .ok f, .ok args => st.callFixed run f args
  | .error e, _ | _, .error e => (.error e, st)

def apply (run : Behaviour β) (f collection : Option Value) (st : Store β) : Outcome β :=
  match require f "callee", require collection "collection" with
  | .ok f, .ok collection => st.apply run f collection
  | .error e, _ | _, .error e => (.error e, st)

/-- Interns a name in the environment `e`, which is the one under the name `env`. A null
namespace stands for the default one. -/
def internVar (ns name : Option (List UInt8)) (env : String) (e : Environment) (st : Store β) :
    Outcome β :=
  match requireText name "name", ns.mapM fun ns => requireText (some ns) "namespace" with
  | .ok name, .ok ns =>
    let (v, e, after) := e.internIn st ns name
    (.ok (.var v), after.setEnvironment env e)
  | .error e, _ | _, .error e => (.error e, st)

def deref (v : Option Value) (st : Store β) : Outcome β :=
  match require v "var" with
  | .ok (.var v) => (st.deref v, st)
  | .ok other => (.error (.notAVar other.text), st)
  | .error e => (.error e, st)

/-- Leaves an error in the environment; a value is handed out, nothing otherwise. -/
def finish (env : String) : Outcome β → Option Value × Store β
  | (.ok v, st) => (some v, st)
  | (.error e, st) => (none, st.record env e)

@[simp] theorem finish_fst (env : String) (out : Outcome β) :
    (finish env out).1 = out.1.toOption := by
  obtain ⟨result, st⟩ := out
  cases result <;> rfl

/-- Performs an operation for an environment. Without a name the environment is a null pointer,
and then nothing happens. A name that no environment has is no pointer, and gives nothing. -/
def perform (env : Option String) (operation : String → Environment → Store β → Outcome β)
    (st : Store β) : Option (Option Value × Store β) :=
  match env with
  | none => some (none, st)
  | some name => (st.environment? name).map fun e => finish name (operation name e st)

/-! ## Operations without an environment -/

/-- A new environment, with default settings if no document is given. -/
def newEnvironment (parse : String → Option Settings) (document : Option (List UInt8)) :
    Option Environment :=
  match document with
  | none => (Environment.create {}).toOption
  | some bytes => do
    let document ← Text.ofTerminated? bytes
    let settings ← (Settings.ofText parse document).toOption
    (Environment.create settings).toOption

theorem lastError_newEnvironment {parse : String → Option Settings} {document : Option (List UInt8)}
    {env : Environment} (h : newEnvironment parse document = some env) : env.lastError = none := by
  have hcreate : ∀ settings, (Environment.create settings).toOption = some env →
      env.lastError = none := by
    intro settings hsome
    cases hmade : Environment.create settings with
    | error e => simp [hmade, Except.toOption] at hsome
    | ok made =>
      rw [hmade] at hsome
      exact Option.some.inj hsome ▸ Environment.lastError_create hmade
  cases document with
  | none => exact hcreate {} h
  | some bytes =>
    obtain ⟨text, -, h⟩ := Option.bind_eq_some_iff.mp h
    obtain ⟨settings, -, h⟩ := Option.bind_eq_some_iff.mp h
    exact hcreate settings h

/-- A descriptor for the shape, or the byte that is none. -/
def describeArity (fixed : UInt8) (variadic ambiguous : Bool) : UInt8 :=
  match Arity.checked fixed variadic ambiguous with
  | .ok a => a.bits
  | .error _ => Arity.refused

/-- A closure without entries. The refused descriptor makes none, and then the context
stays with the caller. -/
def newClosure (bits : UInt8) (context : Context) (st : Store β) :
    Option Value × Store β :=
  if bits = Arity.refused then (none, st)
  else
    let (c, after) := st.newCallable ⟨bits⟩ (.closure none) { context }
    (some (.callable c), after)

/-- Installs an entry and tells whether it could. -/
def installEntry (f : Option Value) (slot : Nat) (body : Option β) (st : Store β) :
    Bool × Store β :=
  match f, body with
  | some (.callable c), some body =>
    if c.isClosure then
      match st.install c slot body with
      | .ok after => (true, after)
      | .error _ => (false, st)
    else (false, st)
  | _, _ => (false, st)

def bindRoot (v value : Option Value) (st : Store β) : Bool × Store β :=
  match v, value with
  | some (.var v), some value => (true, st.bind v value)
  | _, _ => (false, st)

def newString (bytes : Option (List UInt8)) : Option Value :=
  (requireText bytes "string").toOption.map .string

def isTruthy (v : Option Value) : Bool := v.any Value.isTruthy

/-- Null pointers equal nothing, not even each other. -/
def equal (v w : Option Value) : Bool :=
  match v, w with
  | some v, some w => v.eq w
  | _, _ => false

def hash (v : Option Value) : UInt64 := (v.map Value.hash).getD 0

/-- Reads an integer into a place, if there are both. -/
def readInteger (v : Option Value) (place : Option Int64) : Bool × Option Int64 :=
  match v.bind Value.integer?, place with
  | some n, some _ => (true, some n)
  | _, _ => (false, place)

end ArityDispatch.Boundary

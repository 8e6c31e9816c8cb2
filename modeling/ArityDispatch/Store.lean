import ArityDispatch.Entries
import ArityDispatch.Environment

/-!
# The store

The store holds what can change behind a handle: the root of each var, the entry slots of
each callable together with the context that its entries receive, and the environments, each
under the name that it is passed by. It also hands out identities, one number after the
other, so that no two values made from one store share an identity by accident.

Interning a name again gives the var that it had; names of two environments never share a
var.

A store is parametric in what an entry slot holds. Nothing in this module runs a body.
-/

namespace ArityDispatch

/-- What the entries of a closure receive besides their arguments. A context without a
base is null. A releasable context is given back to its owner when its closure dies. -/
structure Context where
  base : Option Int64 := none
  releasable : Bool := false
deriving DecidableEq, Repr, Inhabited

namespace Context

def isNull (c : Context) : Bool := c.base.isNone

/-- Whether the death of the closure gives something back. -/
def owes (c : Context) : Bool := c.base.isSome && c.releasable

end Context

/-- The changing part of a callable. -/
structure Callee (β : Type) where
  context : Context := {}
  entries : Entries β := {}
deriving Inhabited

structure Store (β : Type) where
  callees : Table Nat (Callee β) := {}
  roots : Table Nat (Option Value) := {}
  environments : Table String Environment := {}
  next : Nat := 1
deriving Inhabited

namespace Store

variable {β : Type}

/-- The store after `n` identities from `next` on have been used. -/
def claim (st : Store β) (n : Nat) : Store β := { st with next := st.next + n }

/-! ## Vars -/

def newVar (st : Store β) (ns name : String) (root : Option Value) : Var × Store β :=
  (⟨st.next, ns, name⟩, { st.claim 1 with roots := st.roots.insert st.next root })

def root? (st : Store β) (v : Var) : Option Value := (st.roots.get? v.id).join

def deref (st : Store β) (v : Var) : Except CallError Value :=
  match st.root? v with
  | some value => .ok value
  | none => .error (.unboundVar v.qualified)

def bind (st : Store β) (v : Var) (value : Value) : Store β :=
  { st with roots := st.roots.update v.id fun _ => some value }

/-! ## Callables -/

def newCallable (st : Store β) (arity : Arity) (origin : Origin) (callee : Callee β) :
    Callable × Store β :=
  (⟨st.next, arity, origin⟩, { st.claim 1 with callees := st.callees.insert st.next callee })

def callee? (st : Store β) (c : Callable) : Option (Callee β) := st.callees.get? c.id

def body? (st : Store β) (c : Callable) (k : Nat) : Option β :=
  (st.callee? c).bind fun callee => callee.entries.get? k

def context (st : Store β) (c : Callable) : Context :=
  ((st.callee? c).map Callee.context).getD {}

/-- Installs a body behind a handle, and every copy of the handle sees it. A handle whose
callable is gone has no slots. -/
def install (st : Store β) (c : Callable) (k : Nat) (body : β) : Except CallError (Store β) :=
  match st.callee? c with
  | none => .error (.invalidEntrySlot k)
  | some callee =>
    match callee.entries.install k body with
    | .error e => .error e
    | .ok entries =>
      .ok { st with callees := st.callees.update c.id fun d => { d with entries } }

/-! ## Environments -/

def environment? (st : Store β) (env : String) : Option Environment := st.environments.get? env

/-- Puts an environment in its place, new or instead of the one that was there. -/
def setEnvironment (st : Store β) (env : String) (e : Environment) : Store β :=
  { st with environments := st.environments.insert env e }

def freeEnvironment (st : Store β) (env : String) : Store β :=
  { st with environments := st.environments.erase env }

/-- Leaves the text of an error in an environment, if there is one. -/
def record (st : Store β) (env : String) (error : CallError) : Store β :=
  { st with environments := st.environments.update env fun e => e.record error }

def clearError (st : Store β) (env : String) : Store β :=
  { st with environments := st.environments.update env Environment.clearError }

/-! ## What each operation does to roots, entries and environments -/

theorem root?_bind (st : Store β) (v w : Var) (value : Value) (h : (st.roots.get? v.id).isSome) :
    (st.bind v value).root? w = if w.id = v.id then some value else st.root? w := by
  simp only [root?, bind, Table.get?_update]
  by_cases hw : w.id = v.id
  · rw [if_pos hw, if_pos hw]
    obtain ⟨r, hr⟩ := Option.isSome_iff_exists.mp h
    rw [hw, hr]
    rfl
  · rw [if_neg hw, if_neg hw]

@[simp] theorem body?_bind (st : Store β) (v : Var) (value : Value) (c : Callable) (k : Nat) :
    (st.bind v value).body? c k = st.body? c k := rfl

@[simp] theorem root?_claim (st : Store β) (n : Nat) (v : Var) :
    (st.claim n).root? v = st.root? v := rfl

@[simp] theorem body?_claim (st : Store β) (n : Nat) (c : Callable) (k : Nat) :
    (st.claim n).body? c k = st.body? c k := rfl

@[simp] theorem environment?_claim (st : Store β) (n : Nat) (env : String) :
    (st.claim n).environment? env = st.environment? env := rfl

theorem environment?_setEnvironment (st : Store β) (env name : String) (e : Environment) :
    (st.setEnvironment env e).environment? name =
      if name = env then some e else st.environment? name :=
  Table.get?_insert st.environments env name e

theorem environment?_record (st : Store β) (env name : String) (error : CallError) :
    (st.record env error).environment? name =
      if name = env then (st.environment? name).map (·.record error) else st.environment? name :=
  Table.get?_update st.environments env name _

theorem environment?_clearError (st : Store β) (env name : String) :
    (st.clearError env).environment? name =
      if name = env then (st.environment? name).map Environment.clearError
      else st.environment? name :=
  Table.get?_update st.environments env name _

end Store

/-! ## Names -/

namespace Environment

variable {β : Type}

/-- The var of a name, made without a root on first use. -/
def intern (env : Environment) (st : Store β) (ns name : String) : Var × Environment × Store β :=
  match env.find? ns name with
  | some v => (v, env, st)
  | none =>
    let (v, after) := st.newVar ns name none
    (v, { env with vars := env.vars.insert (ns, name) v }, after)

/-- The var of a name whose namespace may be left out, and then is the default one. -/
def internIn (env : Environment) (st : Store β) (ns : Option String) (name : String) :
    Var × Environment × Store β :=
  env.intern st (ns.getD env.settings.ns) name

@[simp] theorem lastError_intern (env : Environment) (st : Store β) (ns name : String) :
    (env.intern st ns name).2.1.lastError = env.lastError := by
  unfold intern
  cases env.find? ns name <;> rfl

/-- Once interned, a name is known. -/
theorem find?_intern (env : Environment) (st : Store β) (ns name : String) :
    (env.intern st ns name).2.1.find? ns name = some (env.intern st ns name).1 := by
  unfold intern
  cases hfind : env.find? ns name with
  | some v => exact hfind
  | none => rw [find?, Table.get?_insert, if_pos rfl]

end Environment

end ArityDispatch

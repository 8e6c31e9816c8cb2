import ArityDispatch.Body
import ArityDispatch.Release
import ArityDispatch.Session.Literal

/-!
# The state of a session

A session is a host program that works with one store. It holds values under names, and
keeps a log of the closures that gave their context back, in the order in which they died.
The environments of the store are its own as well: what they know stays in use.
-/

namespace ArityDispatch

structure Session where
  store : Store Body := {}
  handles : Table String Value := {}
  released : List Nat := []
deriving Inhabited

namespace Session

/-- The name of the environment that a session starts with. -/
def mainEnvironment : String := "rt"

def start : Session := { store := ({} : Store Body).setEnvironment mainEnvironment {} }

/-- The identities that the session holds outside the store. -/
def held (s : Session) : List Nat := s.handles.values.flatMap Value.refs

/-- Gives up whatever is not held any more. -/
def settle (s : Session) : Session :=
  let (store, owing) := s.store.release s.held
  { s with store, released := s.released ++ owing }

def hold (s : Session) (name : String) (v : Value) : Session :=
  { s with handles := s.handles.insert name v }

def build (s : Session) (l : Literal) : Option (Value × Session) :=
  (l.build s.handles.get? s.store.next).map fun r =>
    (r.1, { s with store := { s.store with next := r.2 } })

def buildAll (s : Session) (ls : List Literal) : Option (List Value × Session) :=
  (Literal.buildItems s.handles.get? ls s.store.next).map fun r =>
    (r.1, { s with store := { s.store with next := r.2 } })

/-- A pointer is null, or points to a value. -/
def buildPointer (s : Session) (pointer : Option Literal) : Option (Option Value × Session) :=
  match pointer with
  | none => some (none, s)
  | some l => (s.build l).map fun r => (some r.1, r.2)

def buildPointers (s : Session) :
    List (Option Literal) → Option (List (Option Value) × Session)
  | [] => some ([], s)
  | p :: rest =>
    (s.buildPointer p).bind fun r =>
      (r.2.buildPointers rest).map fun rs => (r.1 :: rs.1, rs.2)

def environment? (s : Session) (name : String) : Option Environment :=
  s.store.environment? name

def withStore (s : Session) (store : Store Body) : Session := { s with store }

def setEnvironment (s : Session) (name : String) (e : Environment) : Session :=
  s.withStore (s.store.setEnvironment name e)

/-! ## Building only draws identities -/

/-- The session with another next free identity. -/
def drawn (s : Session) (next : Nat) : Session := { s with store := { s.store with next } }

section
variable {s s' : Session}

theorem build_drawn {l : Literal} {v : Value} (h : s.build l = some (v, s')) :
    ∃ next, s' = s.drawn next := by
  obtain ⟨r, -, hr⟩ := Option.map_eq_some_iff.mp h
  cases hr
  exact ⟨r.2, rfl⟩

theorem buildAll_drawn {ls : List Literal} {vs : List Value}
    (h : s.buildAll ls = some (vs, s')) : ∃ next, s' = s.drawn next := by
  obtain ⟨r, -, hr⟩ := Option.map_eq_some_iff.mp h
  cases hr
  exact ⟨r.2, rfl⟩

theorem buildPointer_drawn {pointer : Option Literal} {p : Option Value}
    (h : s.buildPointer pointer = some (p, s')) : ∃ next, s' = s.drawn next := by
  cases pointer with
  | none =>
    cases h
    exact ⟨_, rfl⟩
  | some l =>
    obtain ⟨⟨v, s₁⟩, hv, hr⟩ := Option.map_eq_some_iff.mp h
    cases hr
    exact build_drawn hv

theorem buildPointers_drawn {pointers : List (Option Literal)} {ps : List (Option Value)}
    (h : s.buildPointers pointers = some (ps, s')) : ∃ next, s' = s.drawn next := by
  induction pointers generalizing s ps with
  | nil =>
    cases h
    exact ⟨_, rfl⟩
  | cons pointer pointers ih =>
    obtain ⟨⟨p, s₁⟩, hp, h⟩ := Option.bind_eq_some_iff.mp h
    obtain ⟨⟨rest, s₂⟩, hrest, hr⟩ := Option.map_eq_some_iff.mp h
    cases hr
    obtain ⟨n, rfl⟩ := buildPointer_drawn hp
    obtain ⟨m, rfl⟩ := ih hrest
    exact ⟨m, rfl⟩

end

end Session

end ArityDispatch

import ArityDispatch.Boundary
import Mathlib.Data.Finset.Card
import Mathlib.Logic.Function.Basic

/-!
# Vars as a plain map

A program works with vars through handles that it has been given. It interns names in any
of its environments, looks names up, makes vars of its own, copies handles, binds roots and
reads them, partly across the embedding boundary. `VarHost` runs such a program on the store;
`PlainVars` runs the same program on what a reader has in mind: a set of names, and a function
from cells to roots. The plain map is told what text bytes spell, and knows nothing else of how
names come across the boundary.

A program writes a handle as its number in the order in which handles were given, so that
one program can be run on both sides. Where there is no such handle or no such environment,
nothing is done.
-/

namespace ArityDispatch

inductive VarOperation where
  /-- Interns a name; without a namespace in the default one. -/
  | intern (env : String) (ns : Option String) (name : String)
  | internText (env : String) (ns name : Option (List UInt8))
  | find (env ns name : String)
  /-- Makes a var that no environment knows. -/
  | make (ns name : String) (root : Option Value)
  | copy (handle : Nat)
  | bind (handle : Nat) (value : Value)
  | bindPointer (handle : Option Nat) (value : Option Value)
  | deref (handle : Nat)
  | derefPointer (env : String) (handle : Option Nat)

/-- What a program is told by one operation. -/
inductive VarReply where
  /-- One more handle, which comes last among the handles. -/
  | handle
  | absent
  | bound (done : Bool)
  | result (r : Except CallError Value)
  /-- There is no such handle or no such environment. -/
  | unanswered

/-- Runs a step for each operation and collects the replies. -/
def replies {σ ι ρ : Type} (step : σ → ι → ρ × σ) : σ → List ι → List ρ × σ
  | s, [] => ([], s)
  | s, op :: ops =>
    let (reply, after) := step s op
    let (rest, last) := replies step after ops
    (reply :: rest, last)

/-! ## On a store -/

structure VarHost (β : Type) where
  store : Store β := {}
  handles : List Var := []

namespace VarHost

variable {β : Type}

def give (h : VarHost β) (v : Var) : VarHost β := { h with handles := h.handles ++ [v] }

/-- A pointer is null, or a handle. -/
def pointer (h : VarHost β) : Option Nat → Option (Option Value)
  | none => some none
  | some i => (h.handles[i]?).map fun v => some (.var v)

def step (h : VarHost β) : VarOperation → VarReply × VarHost β
  | .intern env ns name =>
    match h.store.environment? env with
    | some e =>
      let (v, e, st) := e.internIn h.store ns name
      (.handle, { h with store := st.setEnvironment env e }.give v)
    | none => (.unanswered, h)
  | .internText env ns name =>
    match h.store.environment? env with
    | some e =>
      let out := Boundary.internVar ns name env e h.store
      let after := { h with store := (Boundary.finish env out).2 }
      match out.1 with
      | .ok (.var v) => (.handle, after.give v)
      | result => (.result result, after)
    | none => (.unanswered, h)
  | .find env ns name =>
    match h.store.environment? env with
    | some e =>
      match e.find? ns name with
      | some v => (.handle, h.give v)
      | none => (.absent, h)
    | none => (.unanswered, h)
  | .make ns name root =>
    let (v, st) := h.store.newVar ns name root
    (.handle, { h with store := st }.give v)
  | .copy i =>
    match h.handles[i]? with
    | some v => (.handle, h.give v)
    | none => (.unanswered, h)
  | .bind i value =>
    match h.handles[i]? with
    | some v => (.bound true, { h with store := h.store.bind v value })
    | none => (.unanswered, h)
  | .bindPointer handle value =>
    match h.pointer handle with
    | some p =>
      let (done, st) := Boundary.bindRoot p value h.store
      (.bound done, { h with store := st })
    | none => (.unanswered, h)
  | .deref i =>
    match h.handles[i]? with
    | some v => (.result (h.store.deref v), h)
    | none => (.unanswered, h)
  | .derefPointer env handle =>
    match h.pointer handle, h.store.environment? env with
    | some p, some _ =>
      let out := Boundary.deref p h.store
      (.result out.1, { h with store := (Boundary.finish env out).2 })
    | _, _ => (.unanswered, h)

/-- Environments with these names and settings, in which nothing is interned yet. -/
def start (settings : String → Settings) (names : List String) : VarHost β :=
  { store := names.foldr (fun env st => st.setEnvironment env { settings := settings env }) {} }

def run (settings : String → Settings) (names : List String) (ops : List VarOperation) :
    List VarReply × VarHost β :=
  replies step (start settings names) ops

end VarHost

/-! ## On a plain map -/

/-- A var is known by the environment and the name that it was interned under. The others are
numbered in the order in which they were made. -/
inductive VarCell where
  | interned (env ns name : String)
  | separate (number : Nat) (ns name : String)
deriving DecidableEq

namespace VarCell

def ns : VarCell → String
  | interned _ ns _ | separate _ ns _ => ns

def name : VarCell → String
  | interned _ _ name | separate _ _ name => name

end VarCell

structure PlainVars where
  names : Finset (String × String × String) := ∅
  roots : VarCell → Option Value := fun _ => none
  made : Nat := 0
  handles : List VarCell := []

namespace PlainVars

def give (p : PlainVars) (c : VarCell) : PlainVars := { p with handles := p.handles ++ [c] }

def intern (p : PlainVars) (env ns name : String) : PlainVars :=
  { p with names := insert (env, ns, name) p.names }.give (.interned env ns name)

def bind (p : PlainVars) (c : VarCell) (root : Option Value) : PlainVars :=
  { p with roots := Function.update p.roots c root }

def deref (p : PlainVars) (c : VarCell) : Except CallError Value :=
  match p.roots c with
  | some value => .ok value
  | none => .error (.unboundVar (c.ns ++ "/" ++ c.name))

def pointer (p : PlainVars) : Option Nat → Option (Option VarCell)
  | none => some none
  | some i => (p.handles[i]?).map some

/-- One operation, given what bytes spell and which environments there are, each with its
default namespace. -/
def step (spell : List UInt8 → Option String) (spaces : String → Option String) (p : PlainVars) :
    VarOperation → VarReply × PlainVars
  | .intern env ns name =>
    match spaces env with
    | some space => (.handle, p.intern env (ns.getD space) name)
    | none => (.unanswered, p)
  | .internText env ns name =>
    match spaces env, name with
    | none, _ => (.unanswered, p)
    | some _, none => (.result (.error (.nullPointer "name")), p)
    | some space, some bytes =>
      match spell bytes, ns with
      | none, _ => (.result (.error .invalidUtf8), p)
      | some text, none => (.handle, p.intern env space text)
      | some text, some bytes =>
        match spell bytes with
        | some ns => (.handle, p.intern env ns text)
        | none => (.result (.error .invalidUtf8), p)
  | .find env ns name =>
    if spaces env = none then (.unanswered, p)
    else if (env, ns, name) ∈ p.names then (.handle, p.give (.interned env ns name))
    else (.absent, p)
  | .make ns name root =>
    let c := .separate p.made ns name
    (.handle, { p.bind c root with made := p.made + 1 }.give c)
  | .copy i =>
    match p.handles[i]? with
    | some c => (.handle, p.give c)
    | none => (.unanswered, p)
  | .bind i value =>
    match p.handles[i]? with
    | some c => (.bound true, p.bind c (some value))
    | none => (.unanswered, p)
  | .bindPointer handle value =>
    match p.pointer handle, value with
    | none, _ => (.unanswered, p)
    | some (some c), some value => (.bound true, p.bind c (some value))
    | some _, _ => (.bound false, p)
  | .deref i =>
    match p.handles[i]? with
    | some c => (.result (p.deref c), p)
    | none => (.unanswered, p)
  | .derefPointer env handle =>
    match p.pointer handle, spaces env with
    | some (some c), some _ => (.result (p.deref c), p)
    | some none, some _ => (.result (.error (.nullPointer "var")), p)
    | _, _ => (.unanswered, p)

def run (spell : List UInt8 → Option String) (spaces : String → Option String)
    (ops : List VarOperation) : List VarReply × PlainVars :=
  replies (step spell spaces) {} ops

end PlainVars

end ArityDispatch

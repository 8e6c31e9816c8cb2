import ArityDispatch.Settings.Basic
import ArityDispatch.Store

/-!
# Answers

What a session tells about one command. An answer that is an object can be held under a
name.
-/

namespace ArityDispatch

/-- What can be seen of a closure from outside. -/
structure ClosureView where
  callable : Callable
  context : Context
  installed : List Nat
deriving Repr

inductive Answer where
  | object (v : Value)
  /-- The var of an interned name, with the number of names. -/
  | interned (v : Value) (count : Nat)
  | error (e : CallError)
  | settingsError (e : SettingsError)
  | flag (b : Bool)
  | count (n : Nat)
  | done
  /-- There is no such object or text. -/
  | absent
  /-- A null pointer was handed out. -/
  | null
  | bound
  | notCallable
  | text (s : String)
  | inspected (v : Value)
  | compared (vs : List Value)
  | installed (slot : Nat)
  | closureView (view : ClosureView)
  | varView (v : Var) (isBound : Bool)
  | environmentView (settings : Settings) (names : Nat)
  | descriptor (bits : UInt8)
  | hash (h : UInt64)
  | integerRead (done : Bool) (place : Option Int64)
deriving Repr, Inhabited

namespace Answer

def ofResult : Except CallError Value → Answer
  | .ok v => object v
  | .error e => error e

def ofPointer : Option Value → Answer
  | some v => object v
  | none => null

/-- The object of an answer that is one. -/
def object? : Answer → Option Value
  | object v | interned v _ => some v
  | _ => none

end Answer

namespace ClosureView

/-- A list of numbers between brackets. -/
def numbers (ns : List Nat) : String :=
  "[" ++ String.intercalate ", " (ns.map toString) ++ "]"

/-- All fields of a closure whose context is null. -/
def fields (view : ClosureView) : String :=
  let name :=
    match view.callable.origin with
    | .closure (some name) => "Some(" ++ String.ofList (Text.quote name.toList) ++ ")"
    | _ => "None"
  "Closure \x7b name: " ++ name ++ ", flags: " ++ view.callable.arity.fields ++
    ", entries: " ++ numbers view.installed ++
    ", context: ClosureContext \x7b ptr: 0x0, has_release: " ++
    toString view.context.releasable ++ " \x7d \x7d"

end ClosureView

/-- How an installed entry shows itself. -/
def entryText (slot : Nat) : String := "NativeEntry(arity " ++ toString slot ++ ")"

end ArityDispatch

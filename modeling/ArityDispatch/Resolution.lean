import ArityDispatch.Lookup
import ArityDispatch.Store

/-!
# Resolution of calls

A call names a source and gives arguments. Resolution decides, without running anything,
what the call does: it enters one callable with given parameters, or it has its answer
already. The number of parameters chooses the entry.

A callable with a boundary takes its arguments from the boundary on as one list. At the
boundary itself the rest is `nil`, unless the descriptor is ambiguous and the fixed entry
is meant. No entry takes more than ten parameters, so at a boundary of ten the last of ten
arguments already belongs to the rest. Calls with more than ten arguments arrive as ten
leading arguments and a rest; a callable that takes no rest cannot be called so.

A var stands for its root, which is looked up once: a root that is itself a var is not
callable.
-/

namespace ArityDispatch

inductive Resolution where
  | enter (callee : Callable) (params : List Value)
  | answer (result : Except CallError Value)

/-- What a value can do in callee position. -/
inductive Invocable where
  | callable (c : Callable)
  | lookup (l : Lookup)
  | other
deriving Repr, Inhabited

def Invocable.of (v : Value) : Invocable :=
  match v.callable? with
  | some c => callable c
  | none =>
    match Lookup.of? v with
    | some l => lookup l
    | none => other

/-- The parameters for at most ten arguments. A rest list is made under the identity `id`. -/
def Arity.pack (a : Arity) (id : Nat) (args : List Value) : List Value :=
  match a.boundary with
  | none => args
  | some k =>
    if k < args.length then args.take k ++ [.list id (args.drop k)]
    else if k = args.length ∧ !a.isAmbiguous then
      if args.length = maxParams then
        args.take (maxParams - 1) ++ [.list id (args.drop (maxParams - 1))]
      else args ++ [.nil]
    else args

/-- How many arguments stay in front of the rest when there are more than ten. -/
def Arity.split? (a : Arity) : Option Nat :=
  match a.boundary with
  | none => none
  | some k =>
    if k < maxParams then some k
    else if k = maxParams ∧ !a.isAmbiguous then some (maxParams - 1)
    else none

namespace Store

variable {β : Type}

/-- What a source stands for. -/
def target (st : Store β) (source : Value) : Except CallError Value :=
  match source with
  | .var v => st.deref v
  | other => .ok other

/-- Resolves a call with at most ten arguments. -/
def resolve (st : Store β) (source : Value) (args : List Value) : Resolution :=
  match st.target source with
  | .error e => .answer (.error e)
  | .ok target =>
    match Invocable.of target with
    | .callable c => .enter c (c.arity.pack st.next args)
    | .lookup l => .answer (l.invoke target args)
    | .other => .answer (.error (.invalidArity args.length target.text))

/-- Resolves a call with ten leading arguments and a rest. -/
def resolveRest (st : Store β) (source : Value) (leading rest : List Value) : Resolution :=
  if rest.isEmpty then st.resolve source leading
  else
    let total := leading.length + rest.length
    match st.target source with
    | .error e => .answer (.error e)
    | .ok target =>
      match target.callable? with
      | none => .answer (.error (.invalidArity total target.text))
      | some c =>
        match c.arity.split? with
        | none => .answer (.error (.unsupportedArity total c.describe))
        | some k => .enter c (leading.take k ++ [.list st.next (leading.drop k ++ rest)])

end Store

end ArityDispatch

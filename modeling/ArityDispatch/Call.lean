import ArityDispatch.Resolution
import ArityDispatch.Value.Seq

/-!
# Calls

Performing a resolution enters at most one callable. What an entry does is given from
outside as a `Behaviour`, which may change the store and may fail. The failure of a native
callable is passed on; a closure only tells that its entry gave no value.

There are several ways to hand over the same arguments: at most ten of them, ten and a
rest list, a slice of any length, a stream whose length is not known before its eleventh
element has been asked for, and a collection whose elements are read in order.
-/

namespace ArityDispatch

/-- What running a body gives: a value or an error, and the store afterwards. -/
abbrev Outcome (β : Type) := Except CallError Value × Store β

/-- Runs a body on the base of its context and its arguments. -/
abbrev Behaviour (β : Type) := β → Option Int64 → List Value → Store β → Outcome β

/-- What a caller is told about the result of an entry. -/
def Callable.report (c : Callable) (slot : Nat) (result : Except CallError Value) :
    Except CallError Value :=
  match result with
  | .ok v => .ok v
  | .error e => .error (if c.isClosure then .nativeFailure slot c.describe else e)

/-- Enters the entry for these parameters, without looking at the descriptor. -/
def Callable.enter {β : Type} (run : Behaviour β) (c : Callable) (params : List Value)
    (st : Store β) : Outcome β :=
  match st.body? c params.length with
  | none => (.error (.invalidArity params.length c.describe), st)
  | some body =>
    let (result, after) := run body (st.context c).base params (st.claim 1)
    (c.report params.length result, after)

def Resolution.perform {β : Type} (run : Behaviour β) (r : Resolution) (st : Store β) :
    Outcome β :=
  match r with
  | .enter c params => c.enter run params st
  | .answer result => (result, st)

namespace Store

variable {β : Type} (run : Behaviour β)

/-- A call with at most ten arguments. -/
def callFixed (source : Value) (args : List Value) (st : Store β) : Outcome β :=
  (st.resolve source args).perform run st

/-- A call with ten leading arguments and a rest list, which may be empty. -/
def callRest (source : Value) (leading rest : List Value) (st : Store β) : Outcome β :=
  (st.resolveRest source leading rest).perform run st

/-- A call with a slice of any length. -/
def call (source : Value) (args : List Value) (st : Store β) : Outcome β :=
  if args.length ≤ maxParams then st.callFixed run source args
  else st.callRest run source (args.take maxParams) (args.drop maxParams)

/-- A call with a stream of arguments: eleven are asked for, and only if all eleven come
is the last of them put in front of what the stream still holds. -/
def callStream (source : Value) (stream : List Value) (st : Store β) : Outcome β :=
  let ahead := stream.take (maxParams + 1)
  if ahead.length ≤ maxParams then st.callFixed run source ahead
  else
    st.callRest run source ahead.dropLast
      (ahead.getLast?.toList ++ stream.drop (maxParams + 1))

/-- A call with the elements of a collection. -/
def apply (source collection : Value) (st : Store β) : Outcome β :=
  match collection.seq? with
  | .error e => (.error e, st)
  | .ok s =>
    let (args, next) := s.drain st.next
    { st with next }.callStream run source args

end Store

end ArityDispatch

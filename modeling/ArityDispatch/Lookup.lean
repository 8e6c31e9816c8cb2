import ArityDispatch.CallError
import ArityDispatch.Value.Collection

/-!
# Lookup callees

Maps, sets and keywords may stand in callee position. A map looks its argument up, a set
gives the stored element equal to its argument, and a keyword looks itself up in its
argument. With one argument a miss gives `nil`. Maps and keywords take a second argument
that is given on a miss; every other argument count is an arity error, and no entry of a
callable is ever entered.
-/

namespace ArityDispatch

inductive Lookup where
  | entries (es : List (Value × Value))
  | items (vs : List Value)
  | keyword (name : String)
deriving Repr, Inhabited

namespace Lookup

def of? : Value → Option Lookup
  | .map _ es => some (entries es)
  | .set _ vs => some (items vs)
  | .keyword name => some (keyword name)
  | _ => none

def find? (l : Lookup) (probe : Value) : Option Value :=
  match l with
  | entries es => Value.findEntry es probe
  | items vs => Value.findItem vs probe
  | keyword name =>
    match probe with
    | .map _ es => Value.findEntry es (.keyword name)
    | _ => none

/-- The answer to one argument. -/
def findOrNil (l : Lookup) (probe : Value) : Value := (l.find? probe).getD .nil

/-- The answer to an argument and a default. Sets take no default. -/
def findOr? (l : Lookup) (probe default : Value) : Option Value :=
  match l with
  | items _ => none
  | entries _ | keyword _ => some ((l.find? probe).getD default)

/-- The answer to any arguments; `callee` is the value that the lookup was made from. -/
def invoke (l : Lookup) (callee : Value) (args : List Value) : Except CallError Value :=
  let refusal := .error (.invalidArity args.length callee.text)
  match args with
  | [probe] => .ok (l.findOrNil probe)
  | [probe, default] => (l.findOr? probe default).elim refusal .ok
  | _ => refusal

end Lookup

end ArityDispatch

import ArityDispatch.Arity
import ArityDispatch.Binary64
import ArityDispatch.Text.Quoted

/-!
# Values

The values that calls pass around. Collections, vars and callables have an identity: a
number drawn once when the value is made and kept by every copy of it. A copy of a
collection also keeps its elements, so that two collections of one identity hold the same
elements; the elements of a map or a set are arranged by `Value.mapOf` and `Value.setOf`,
which leave no two equal keys.

A var or a callable is a handle. What never changes is written on the handle itself: the
qualified name of a var, the description and the descriptor of a callable. What changes
(the root of a var, the entry slots of a closure) is kept in the store under the identity.
-/

namespace ArityDispatch

structure Var where
  id : Nat
  ns : String
  name : String
deriving DecidableEq, Repr, Inhabited

/-- Where a callable comes from decides how it is described and how the failure of one of
its bodies is reported. -/
inductive Origin where
  | native (description : String)
  | closure (name : Option String)
deriving DecidableEq, Repr, Inhabited

structure Callable where
  id : Nat
  arity : Arity
  origin : Origin
deriving DecidableEq, Repr, Inhabited

inductive Value where
  | nil
  | bool (b : Bool)
  | integer (n : Int64)
  | real (x : Binary64)
  | string (s : String)
  | keyword (name : String)
  | list (id : Nat) (items : List Value)
  | vector (id : Nat) (items : List Value)
  | map (id : Nat) (entries : List (Value × Value))
  | set (id : Nat) (items : List Value)
  | var (v : Var)
  | callable (c : Callable)
deriving Repr, Inhabited

/-- `ns/name` -/
def Var.qualified (v : Var) : String := v.ns ++ "/" ++ v.name

def Var.text (v : Var) : String := "#'" ++ v.qualified

def Callable.isClosure (c : Callable) : Bool :=
  match c.origin with
  | .native _ => false
  | .closure _ => true

/-- What error messages call a callable. A closure without a name shows its identity. -/
def Callable.describe (c : Callable) : String :=
  match c.origin with
  | .native description => description
  | .closure (some name) => "#<closure " ++ name ++ ">"
  | .closure none => "#<closure 0x" ++ String.ofList (Text.hex c.id) ++ ">"

namespace Value

def typeName : Value → String
  | nil => "nil"
  | bool _ => "boolean"
  | integer _ => "integer"
  | real _ => "real"
  | string _ => "string"
  | keyword _ => "keyword"
  | list .. => "list"
  | vector .. => "vector"
  | map .. => "map"
  | set .. => "set"
  | var _ => "var"
  | callable c => if c.isClosure then "closure" else "native-fn"

def isNil : Value → Bool
  | nil => true
  | _ => false

/-- Everything but `nil` and `false` is truthy. -/
def isTruthy : Value → Bool
  | nil | bool false => false
  | _ => true

def integer? : Value → Option Int64
  | integer n => some n
  | _ => none

/-- Vars are not callable themselves: a call looks up their root first. -/
def callable? : Value → Option Callable
  | callable c => some c
  | _ => none

/-- Whether a value is a number that equals nothing, itself included. -/
def isNaN : Value → Bool
  | real x => x.isNaN
  | _ => false

end Value

/-! ## Printed form -/

mutual

/-- The printed form of a value. -/
def Value.spell : Value → List Char
  | .nil => ['n', 'i', 'l']
  | .bool b => (toString b).toList
  | .integer n => (toString n.toInt).toList
  | .real x => x.spell
  | .string s => Text.quote s.toList
  | .keyword name => ':' :: name.toList
  | .list _ items => '(' :: Value.spellItems items ++ [')']
  | .vector _ items => '[' :: Value.spellItems items ++ [']']
  | .map _ entries => '\x7b' :: Value.spellEntries entries ++ ['\x7d']
  | .set _ items => '#' :: '\x7b' :: Value.spellItems items ++ ['\x7d']
  | .var v => v.text.toList
  | .callable c => c.describe.toList
termination_by structural v => v

/-- The elements of a collection, one blank between any two. -/
def Value.spellItems : List Value → List Char
  | [] => []
  | [v] => v.spell
  | v :: w :: rest => v.spell ++ ' ' :: Value.spellItems (w :: rest)
termination_by structural vs => vs

/-- The entries of a map, a comma and a blank between any two. -/
def Value.spellEntries : List (Value × Value) → List Char
  | [] => []
  | [(k, v)] => k.spell ++ ' ' :: v.spell
  | (k, v) :: e :: rest => k.spell ++ ' ' :: v.spell ++ ',' :: ' ' :: Value.spellEntries (e :: rest)
termination_by structural es => es

end

def Value.text (v : Value) : String := String.ofList v.spell

/-! ## Handles inside a value -/

mutual

/-- The identities of the vars and callables that a value holds at any depth, one for each
occurrence. -/
def Value.refs : Value → List Nat
  | .list _ items | .vector _ items | .set _ items => Value.refsItems items
  | .map _ entries => Value.refsEntries entries
  | .var v => [v.id]
  | .callable c => [c.id]
  | .nil | .bool _ | .integer _ | .real _ | .string _ | .keyword _ => []
termination_by structural v => v

def Value.refsItems : List Value → List Nat
  | [] => []
  | v :: rest => v.refs ++ Value.refsItems rest
termination_by structural vs => vs

def Value.refsEntries : List (Value × Value) → List Nat
  | [] => []
  | (k, v) :: rest => k.refs ++ v.refs ++ Value.refsEntries rest
termination_by structural es => es

end

end ArityDispatch

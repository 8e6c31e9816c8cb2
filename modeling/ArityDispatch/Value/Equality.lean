import ArityDispatch.Value.Basic

/-!
# Equality of values

Two collections are equal when they have one identity, or when their elements are equal:
lists and vectors element by element, maps and sets without regard to order. Vars and
callables are equal when they have one identity; a closure never equals a native callable.
Since a NaN equals nothing, a list that holds one equals its own copies and no list built
anew.

`eqWith` takes the test for one identity as a parameter. `Value.eq` compares identities;
`Value.eqByContent` never finds two collections identical, and so looks into all of them.
-/

namespace ArityDispatch

mutual

/-- Equality over a test for the identity of collections. -/
def Value.eqWith (same : Nat → Nat → Bool) : Value → Value → Bool
  | .nil, .nil => true
  | .bool a, .bool b => a == b
  | .integer a, .integer b => a == b
  | .real a, .real b => a.eq b
  | .string a, .string b => a == b
  | .keyword a, .keyword b => a == b
  | .list i xs, .list j ys => same i j || Value.eqItems same xs ys
  | .vector i xs, .vector j ys => same i j || Value.eqItems same xs ys
  | .map i xs, .map j ys => same i j || (xs.length == ys.length && Value.allBound same xs ys)
  | .set i xs, .set j ys => same i j || (xs.length == ys.length && Value.allIn same xs ys)
  | .var a, .var b => a.id == b.id
  | .callable a, .callable b => a.id == b.id && a.isClosure == b.isClosure
  | _, _ => false
termination_by structural v => v

/-- Equal lengths and equal elements place by place. -/
def Value.eqItems (same : Nat → Nat → Bool) : List Value → List Value → Bool
  | [], [] => true
  | x :: xs, y :: ys => x.eqWith same y && Value.eqItems same xs ys
  | _, _ => false
termination_by structural vs => vs

/-- Each element has an equal one in `ys`. -/
def Value.allIn (same : Nat → Nat → Bool) : List Value → List Value → Bool
  | [], _ => true
  | x :: xs, ys => ys.any (fun y => x.eqWith same y) && Value.allIn same xs ys
termination_by structural vs => vs

/-- Each key is bound in `ys`, and there to an equal value. -/
def Value.allBound (same : Nat → Nat → Bool) :
    List (Value × Value) → List (Value × Value) → Bool
  | [], _ => true
  | (k, v) :: xs, ys =>
    (match ys.find? fun e => k.eqWith same e.1 with
     | some e => v.eqWith same e.2
     | none => false) && Value.allBound same xs ys
termination_by structural es => es

end

namespace Value

def eq (v w : Value) : Bool := v.eqWith (· == ·) w

def eqByContent (v w : Value) : Bool := v.eqWith (fun _ _ => false) w

end Value

end ArityDispatch

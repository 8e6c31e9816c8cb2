import ArityDispatch.Value.Equality
import ArityDispatch.Value.Hashing

/-!
# Comparing several values

The table of all equalities among some values, and their classes under the hash, each
named by the place of its first member.
-/

namespace ArityDispatch.Value

def equalityTable (vs : List Value) : List (List Bool) :=
  vs.map fun v => vs.map v.eq

def hashClasses (vs : List Value) : List Nat :=
  let hashes := vs.map hash
  hashes.map fun h => hashes.findIdx (· == h)

end ArityDispatch.Value

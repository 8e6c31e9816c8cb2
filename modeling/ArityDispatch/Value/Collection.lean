import ArityDispatch.Value.Equality

/-!
# Maps and sets

A map is built from pairs in order: a later pair gives its value to an earlier equal key,
and the key that was there stays. A set keeps the first of equal elements. Lookup takes
the first stored key, or element, that equals the probe.
-/

namespace ArityDispatch.Value

/-- Binds `k` to `v` among entries whose keys are already pairwise unequal. -/
def putEntry : List (Value × Value) → Value → Value → List (Value × Value)
  | [], k, v => [(k, v)]
  | e :: es, k, v => if e.1.eq k then (e.1, v) :: es else e :: putEntry es k v

def entriesOf (pairs : List (Value × Value)) : List (Value × Value) :=
  pairs.foldl (fun es e => putEntry es e.1 e.2) []

/-- The value stored under a key. -/
def findEntry (es : List (Value × Value)) (k : Value) : Option Value :=
  (es.find? fun e => e.1.eq k).map Prod.snd

/-- Adds `v` to elements that are already pairwise unequal. -/
def addItem (items : List Value) (v : Value) : List Value :=
  if items.any (·.eq v) then items else items ++ [v]

def itemsOf (items : List Value) : List Value := items.foldl addItem []

/-- The stored element that equals a probe. -/
def findItem (items : List Value) (v : Value) : Option Value := items.find? (·.eq v)

def mapOf (id : Nat) (pairs : List (Value × Value)) : Value := .map id (entriesOf pairs)

def setOf (id : Nat) (items : List Value) : Value := .set id (itemsOf items)

end ArityDispatch.Value

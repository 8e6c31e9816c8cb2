import ArityDispatch.Value.Collection

/-!
# Literals

A literal writes a value down. Each time it is built it makes new collections, with
identities of their own; a handle in it stands for the very value that is held under that
name.
-/

namespace ArityDispatch

inductive Literal where
  | nil
  | bool (b : Bool)
  | integer (n : Int64)
  | real (x : Binary64)
  | string (s : String)
  | keyword (name : String)
  | list (items : List Literal)
  | vector (items : List Literal)
  | map (entries : List (Literal × Literal))
  | set (items : List Literal)
  | handle (name : String)
deriving Repr, Inhabited

mutual

/-- Builds a value from the identity `id` on and returns the next free one. There is no
value if a handle is not held. -/
def Literal.build (held : String → Option Value) : Literal → Nat → Option (Value × Nat)
  | .nil, id => some (.nil, id)
  | .bool b, id => some (.bool b, id)
  | .integer n, id => some (.integer n, id)
  | .real x, id => some (.real x, id)
  | .string s, id => some (.string s, id)
  | .keyword name, id => some (.keyword name, id)
  | .list items, id =>
    (Literal.buildItems held items (id + 1)).map fun r => (.list id r.1, r.2)
  | .vector items, id =>
    (Literal.buildItems held items (id + 1)).map fun r => (.vector id r.1, r.2)
  | .map entries, id =>
    (Literal.buildEntries held entries (id + 1)).map fun r => (.mapOf id r.1, r.2)
  | .set items, id =>
    (Literal.buildItems held items (id + 1)).map fun r => (.setOf id r.1, r.2)
  | .handle name, id => (held name).map fun v => (v, id)
termination_by structural l => l

def Literal.buildItems (held : String → Option Value) :
    List Literal → Nat → Option (List Value × Nat)
  | [], id => some ([], id)
  | l :: rest, id =>
    (l.build held id).bind fun v =>
      (Literal.buildItems held rest v.2).map fun r => (v.1 :: r.1, r.2)
termination_by structural ls => ls

def Literal.buildEntries (held : String → Option Value) :
    List (Literal × Literal) → Nat → Option (List (Value × Value) × Nat)
  | [], id => some ([], id)
  | (k, l) :: rest, id =>
    (k.build held id).bind fun key =>
      (l.build held key.2).bind fun v =>
        (Literal.buildEntries held rest v.2).map fun r => ((key.1, v.1) :: r.1, r.2)
termination_by structural es => es

end

end ArityDispatch

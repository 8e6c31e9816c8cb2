import ArityDispatch.CallError
import ArityDispatch.Value.Basic

/-!
# Sequences

A seqable value is read element by element: `nil` has no elements, lists, vectors and sets
give their elements, and a map gives each entry as a vector of two. These vectors are made
while reading, so reading takes the next free identity and returns the one after it.
-/

namespace ArityDispatch

/-- What is left to read. -/
inductive Seq where
  | items (vs : List Value)
  | entries (es : List (Value × Value))
deriving Repr, Inhabited

def Value.seq? (v : Value) : Except CallError Seq :=
  match v with
  | .nil => .ok (.items [])
  | .list _ vs | .vector _ vs | .set _ vs => .ok (.items vs)
  | .map _ es => .ok (.entries es)
  | other => .error (.notSeqable other.text)

namespace Seq

/-- How many elements are left. -/
def remaining : Seq → Nat
  | items vs => vs.length
  | entries es => es.length

/-- The next element, the rest of the sequence and the next free identity. -/
def next? (id : Nat) : Seq → Option (Value × Seq × Nat)
  | items [] | entries [] => none
  | items (v :: vs) => some (v, items vs, id)
  | entries ((k, v) :: es) => some (.vector id [k, v], entries es, id + 1)

/-- The vectors of two that stand for entries. -/
def entryVectors : Nat → List (Value × Value) → List Value
  | _, [] => []
  | id, (k, v) :: es => .vector id [k, v] :: entryVectors (id + 1) es

/-- All elements that are left, and the next free identity after reading them. -/
def drain (id : Nat) : Seq → List Value × Nat
  | items vs => (vs, id)
  | entries es => (entryVectors id es, id + es.length)

theorem length_entryVectors (id : Nat) (es : List (Value × Value)) :
    (entryVectors id es).length = es.length := by
  induction es generalizing id with
  | nil => rfl
  | cons e es ih => simp [entryVectors, ih]

theorem length_drain (id : Nat) (s : Seq) : (s.drain id).1.length = s.remaining := by
  cases s with
  | items vs => rfl
  | entries es => exact length_entryVectors id es

theorem drain_next {id n : Nat} {s r : Seq} {v : Value} (h : s.next? id = some (v, r, n)) :
    s.drain id = (v :: (r.drain n).1, (r.drain n).2) := by
  rcases s with (_ | ⟨w, ws⟩) | (_ | ⟨⟨k, w⟩, es⟩) <;> simp only [next?, reduceCtorEq] at h
  all_goals
    obtain ⟨rfl, rfl, rfl⟩ : _ ∧ _ ∧ _ := by simpa using h
    simp [drain, entryVectors, Nat.add_assoc, Nat.add_comm 1]

end Seq

end ArityDispatch

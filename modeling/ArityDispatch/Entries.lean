import ArityDispatch.Arity
import ArityDispatch.CallError

/-!
# Entry slots

A callable has one slot for each parameter count. A slot is written at most once: an
installed body is never replaced, and a refused installation changes nothing.
-/

namespace ArityDispatch

structure Entries (β : Type) where
  slots : Vector (Option β) entrySlots := Vector.replicate entrySlots none

namespace Entries

variable {β : Type}

instance : Inhabited (Entries β) := ⟨{}⟩

/-- The body in a slot; counts above `maxParams` have no slot. -/
def get? (e : Entries β) (k : Nat) : Option β := (e.slots[k]?).join

def install (e : Entries β) (k : Nat) (body : β) : Except CallError (Entries β) :=
  if h : k < entrySlots then
    match e.slots[k] with
    | some _ => .error (.entryAlreadySet k)
    | none => .ok ⟨e.slots.set k (some body)⟩
  else .error (.invalidEntrySlot k)

/-- Installs bodies in order and stops at the first refusal. -/
def installAll (e : Entries β) (bodies : List (Nat × β)) : Except CallError (Entries β) :=
  bodies.foldlM (fun e b => e.install b.1 b.2) e

/-- The parameter counts that have a body. -/
def installed (e : Entries β) : List Nat :=
  (List.range entrySlots).filter fun k => (e.get? k).isSome

@[simp] theorem get?_empty (k : Nat) : ({} : Entries β).get? k = none := by
  unfold get?
  by_cases h : k < entrySlots
  · rw [Vector.getElem?_eq_getElem h, Vector.getElem_replicate]
    rfl
  · rw [Vector.getElem?_eq_none (Nat.le_of_not_lt h)]
    rfl

theorem get?_eq_none_of_lt (e : Entries β) {k : Nat} (h : maxParams < k) :
    e.get? k = none := by
  unfold get?
  rw [Vector.getElem?_eq_none (show entrySlots ≤ k from h)]
  rfl

/-- An installation succeeds exactly when its slot exists and is empty, and then fills
that slot and no other. -/
theorem get?_install {e f : Entries β} {k : Nat} {body : β}
    (h : e.install k body = .ok f) (j : Nat) :
    f.get? j = if j = k then some body else e.get? j := by
  unfold install at h
  split at h
  · next hk =>
    split at h
    · cases h
    · obtain rfl := Except.ok.inj h
      unfold get?
      by_cases hj : j < entrySlots
      · rw [Vector.getElem?_eq_getElem hj, Vector.getElem?_eq_getElem hj, Vector.getElem_set]
        by_cases hjk : j = k
        · simp [hjk]
        · simp [hjk, Ne.symm hjk]
      · rw [Vector.getElem?_eq_none (Nat.le_of_not_lt hj),
          Vector.getElem?_eq_none (Nat.le_of_not_lt hj), if_neg (by omega)]
  · cases h

end Entries

end ArityDispatch

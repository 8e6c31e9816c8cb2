import ArityDispatch.Call
import Mathlib.Data.List.Basic

/-!
# Calls with what a reader yields

A reader is asked for one value at a time. What it yields are the values up to its first
refusal; of what it would say after that nothing is assumed. A reader also estimates how many
values are still to come at least, and is honest if it never promises more than it yields.

A call with a reader first asks for at most eleven values. Only when all eleven have come
does it read on to the end, and the last of the eleven is then put in front of the rest. The rest
is collected in a buffer. It is made with room by the estimate, and whenever a value finds it
full, more room is asked for by the estimate of that moment. If there is no such room, the call
breaks off and has no outcome. How much room there is and when a buffer is full depends on the
machine; an honest reader asks for no more room than its values take.

With room, the call is the same as one with the list of all values, however the reader keeps them
and whatever it estimates: `Reader.calls_iff`. The elements of a collection are read so, and
`Seq.drain` collects exactly what its reader yields.
-/

namespace ArityDispatch

structure Reader where
  State : Type
  next : State → Option Value × State
  /-- How many values are still to come at least, as the reader says. -/
  atLeast : State → Nat

/-- What the machine gives to buffers. -/
structure Buffer where
  /-- A buffer can be had for this many values. -/
  room : Nat → Prop
  /-- A buffer that holds this many values takes no more. -/
  full : Nat → Prop

namespace Reader

variable {r : Reader} {b : Buffer}

/-- The values that come before the first refusal. -/
inductive Yields (r : Reader) : r.State → List Value → Prop
  | done {s t : r.State} : r.next s = (none, t) → Yields r s []
  | more {s t : r.State} {v : Value} {vs : List Value} :
      r.next s = (some v, t) → Yields r t vs → Yields r s (v :: vs)

/-- Asks for at most `n` values and stops at the first refusal. -/
def ahead (r : Reader) : Nat → r.State → List Value × r.State
  | 0, s => ([], s)
  | n + 1, s =>
    match r.next s with
    | (none, t) => ([], t)
    | (some v, t) =>
      let (vs, u) := r.ahead n t
      (v :: vs, u)

theorem Yields.ahead_eq_take {s : r.State} {xs : List Value} (h : r.Yields s xs) (n : Nat) :
    (r.ahead n s).1 = xs.take n := by
  induction h generalizing n with
  | done hnext =>
    cases n with
    | zero => rfl
    | succ n => simp only [ahead, hnext, List.take_nil]
  | more hnext _ ih =>
    cases n with
    | zero => rfl
    | succ n => simp only [ahead, hnext, ih n, List.take_succ_cons]

/-- After `n` values a reader yields what is left of all of them. -/
theorem Yields.after_ahead {s : r.State} {xs : List Value} (h : r.Yields s xs) {n : Nat}
    (hn : n ≤ xs.length) : r.Yields (r.ahead n s).2 (xs.drop n) := by
  induction h generalizing n with
  | done hnext =>
    obtain rfl : n = 0 := Nat.le_zero.mp hn
    exact .done hnext
  | more hnext htail ih =>
    cases n with
    | zero => exact .more hnext htail
    | succ n =>
      simp only [ahead, hnext, List.drop_succ_cons]
      exact ih (Nat.le_of_succ_le_succ hn)

theorem Yields.unique {s : r.State} {xs ys : List Value} (hx : r.Yields s xs)
    (hy : r.Yields s ys) : xs = ys := by
  induction hx generalizing ys with
  | done hnext =>
    cases hy with
    | done _ => rfl
    | more hnext' _ => simp [hnext] at hnext'
  | more hnext _ ih =>
    cases hy with
    | done hnext' => simp [hnext] at hnext'
    | more hnext' htail' =>
      obtain ⟨rfl, rfl⟩ : _ ∧ _ := by simpa [hnext] using hnext'
      rw [ih htail']

/-- The values that come into a buffer which holds `kept` others. A value that finds it full asks
for room by the estimate after it. -/
inductive Collects (r : Reader) (b : Buffer) : Nat → r.State → List Value → Prop
  | done {kept : Nat} {s t : r.State} : r.next s = (none, t) → Collects r b kept s []
  | more {kept : Nat} {s t : r.State} {v : Value} {vs : List Value} : r.next s = (some v, t) →
      (b.full kept → b.room (kept + (1 + r.atLeast t))) → Collects r b (kept + 1) t vs →
      Collects r b kept s (v :: vs)

theorem Collects.yields {kept : Nat} {s : r.State} {vs : List Value}
    (h : r.Collects b kept s vs) : r.Yields s vs := by
  induction h with
  | done hnext => exact .done hnext
  | more hnext _ _ ih => exact .more hnext ih

/-- The reader never promises more values than it yields. -/
def Honest (r : Reader) : Prop :=
  ∀ {s : r.State} {xs : List Value}, r.Yields s xs → r.atLeast s ≤ xs.length

/-- An honest reader asks for no more room than all its values take. -/
theorem Honest.collects (hr : r.Honest) {s : r.State} {vs : List Value} (h : r.Yields s vs)
    {kept : Nat} (hroom : ∀ n ≤ kept + vs.length, b.room n) : r.Collects b kept s vs := by
  -- the buffer gains the value that the rest loses, so the bound stays as it is
  induction h generalizing kept with
  | done hnext => exact .done hnext
  | @more s t v vs hnext htail ih =>
    have hpromised := hr htail
    rw [List.length_cons] at hroom
    exact .more hnext (fun _ => hroom _ (by omega)) (ih fun n hn => hroom n (by omega))

/-- There is room for the rest of the values `xs`, from the eleventh on. With at most ten values
there is no rest. -/
def HasRoom (r : Reader) (b : Buffer) (s : r.State) (xs : List Value) : Prop :=
  xs.length ≤ maxParams ∨
    b.room (1 + r.atLeast (r.ahead (maxParams + 1) s).2) ∧
      r.Collects b 1 (r.ahead (maxParams + 1) s).2 (xs.drop (maxParams + 1))

/-- Room for all values is room enough for an honest reader. -/
theorem Honest.hasRoom (hr : r.Honest) {s : r.State} {xs : List Value} (h : r.Yields s xs)
    (hroom : ∀ n ≤ xs.length, b.room n) : r.HasRoom b s xs := by
  rcases Nat.lt_or_ge maxParams xs.length with hlong | hshort
  · have hlen : maxParams + 1 ≤ xs.length := hlong
    have hrest := h.after_ahead hlen
    have hleft := hr hrest
    rw [List.length_drop] at hleft
    refine .inr ⟨hroom _ (by omega), hr.collects hrest fun n hn => hroom n ?_⟩
    rw [List.length_drop] at hn
    omega
  · exact .inl hshort

section
variable {β : Type} (b : Buffer) (run : Behaviour β)

/-- The outcome of a call of `source` with what the reader yields from `s` on. Reading to
the end gives an outcome only if there is room for the rest, and if there is an end. -/
def Calls (r : Reader) (s : r.State) (source : Value) (st : Store β) (out : Outcome β) : Prop :=
  let leading := (r.ahead (maxParams + 1) s).1
  let left := (r.ahead (maxParams + 1) s).2
  if leading.length ≤ maxParams then out = st.callFixed run source leading
  else b.room (1 + r.atLeast left) ∧ ∃ rest, r.Collects b 1 left rest ∧
    out = st.callRest run source leading.dropLast (leading.getLast?.toList ++ rest)

theorem calls_iff {s : r.State} {xs : List Value} (h : r.Yields s xs) (source : Value)
    (st : Store β) (out : Outcome β) :
    r.Calls b run s source st out ↔ r.HasRoom b s xs ∧ out = st.callStream run source xs := by
  simp only [Calls, HasRoom, Store.callStream, h.ahead_eq_take, List.length_take]
  by_cases hn : xs.length ≤ maxParams
  · have hshort : min (maxParams + 1) xs.length ≤ maxParams := by omega
    simp [hn, hshort]
  · have hlen : maxParams + 1 ≤ xs.length := Nat.lt_of_not_le hn
    have hrest := h.after_ahead hlen
    have hlong : ¬ min (maxParams + 1) xs.length ≤ maxParams := by omega
    simp only [hn, if_neg hlong, false_or, and_assoc, and_congr_right_iff]
    intro _
    constructor
    · rintro ⟨rest, hcollects, rfl⟩
      obtain rfl := hcollects.yields.unique hrest
      exact ⟨hcollects, rfl⟩
    · rintro ⟨hcollects, rfl⟩
      exact ⟨_, hcollects, rfl⟩

end

end Reader

/-- The reader of a sequence. Entries are made into vectors while they are read, so the next
free identity is part of its state. It knows how many elements are left. -/
def Seq.reader : Reader where
  State := Seq × Nat
  next s :=
    match s.1.next? s.2 with
    | none => (none, s)
    | some (v, rest, id) => (some v, rest, id)
  atLeast s := s.1.remaining

theorem Seq.reader_yields_drain (s : Seq) (id : Nat) :
    Seq.reader.Yields (s, id) (s.drain id).1 := by
  cases s with
  | items vs =>
    induction vs with
    | nil => exact .done rfl
    | cons v vs ih => exact .more rfl ih
  | entries es =>
    induction es generalizing id with
    | nil => exact .done rfl
    | cons e es ih => exact .more rfl (ih (id + 1))

theorem Seq.honest_reader : Seq.reader.Honest := by
  rintro ⟨s, id⟩ xs hxs
  rw [hxs.unique (s.reader_yields_drain id), s.length_drain]
  exact Nat.le_refl _

/-- Applying to a collection is a call with the reader of its elements. -/
theorem Store.apply_calls_reader {β : Type} (run : Behaviour β) (source : Value)
    {collection : Value} {s : Seq} (h : collection.seq? = .ok s) (st : Store β) {b : Buffer}
    (hroom : ∀ n ≤ s.remaining, b.room n) :
    Seq.reader.Calls b run (s, st.next) source { st with next := (s.drain st.next).2 }
      (st.apply run source collection) := by
  have hyields := s.reader_yields_drain st.next
  have hsize : ∀ n ≤ (s.drain st.next).1.length, b.room n := by
    rw [s.length_drain]
    exact hroom
  refine (Reader.calls_iff b run hyields source _ _).mpr
    ⟨Seq.honest_reader.hasRoom hyields hsize, ?_⟩
  simp only [Store.apply, h]

end ArityDispatch

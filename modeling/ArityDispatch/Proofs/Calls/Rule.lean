import ArityDispatch.Call
import Mathlib.Data.Nat.Bitwise

/-!
# The reference rule of calls

`Rule` is the table by which a call of a callable is resolved, read off the numbers of the
descriptor byte: which slot is entered and with which parameters, or that no slot is. It
knows nothing of masks, of leading arguments or of the two packing routines, and each of
its rows is one case of the documentation. Some row always applies, and never two.

`call_follows_rule` states that every call does what the rule says, whatever the source,
the descriptor, the implemented slots, the behaviour of the bodies and the number of
arguments. A callable runs at most one body, once. Sources that are not callable run
nothing.
-/

namespace ArityDispatch

namespace Arity

/-! ## The bits of a descriptor -/

theorem and_ne_zero_eq_testBit (b m : UInt8) (i : Nat) (hm : m.toNat = 2 ^ i) :
    (b &&& m != 0) = b.toNat.testBit i := by
  have h : (b &&& m).toNat = (b.toNat.testBit i).toNat * 2 ^ i := by
    rw [UInt8.toNat_and, hm, Nat.and_two_pow]
  have hz : b &&& m = 0 ↔ (b.toNat.testBit i).toNat * 2 ^ i = 0 := by
    rw [← UInt8.toNat_inj, h]
    rfl
  cases hb : b.toNat.testBit i <;> simp [hb] at hz <;> simp [hz]

/-- The rest starts after `k` arguments: the top bit is set, and the six low bits say `k`. -/
def RestFrom (a : Arity) (k : Nat) : Prop :=
  a.bits.toNat.testBit 7 = true ∧ a.bits.toNat % 64 = k

/-- A call at the boundary has a fixed entry of its own. -/
def FixedAtBoundary (a : Arity) : Prop := a.bits.toNat.testBit 6 = true

theorem isAmbiguous_iff (a : Arity) : a.isAmbiguous = true ↔ a.FixedAtBoundary := by
  rw [isAmbiguous, and_ne_zero_eq_testBit a.bits ambiguousBit 6 rfl, FixedAtBoundary]

theorem toNat_highestFixed (a : Arity) : a.highestFixed.toNat = a.bits.toNat % 64 := by
  rw [highestFixed, UInt8.toNat_and]
  exact Nat.and_two_pow_sub_one_eq_mod _ 6

theorem boundary_eq_some_iff (a : Arity) (k : Nat) : a.boundary = some k ↔ a.RestFrom k := by
  rw [boundary, isVariadic, and_ne_zero_eq_testBit a.bits variadicBit 7 rfl,
    toNat_highestFixed, RestFrom]
  split_ifs with h <;> simp [h]

end Arity

/-! ## The rule -/

/-- No row of the rule packs a call with `n` arguments. -/
def Arity.Unpacked (a : Arity) (n : Nat) : Prop :=
  (∀ k, a.RestFrom k → k < n → ¬ k ≤ 9) ∧
    ¬ (a.RestFrom n ∧ n ≤ 9 ∧ ¬ a.FixedAtBoundary) ∧
    ¬ (a.RestFrom 10 ∧ ¬ a.FixedAtBoundary ∧ 10 ≤ n)

/-- The slot that a call with the arguments `xs` enters and its parameters, or none if no
slot is entered. A packed rest is made under the identity `id`. -/
inductive Rule (a : Arity) (id : Nat) (xs : List Value) : Option (Nat × List Value) → Prop
  | packed {k : Nat} : a.RestFrom k → k < xs.length → k ≤ 9 →
      Rule a id xs (some (k + 1, xs.take k ++ [.list id (xs.drop k)]))
  | emptyRest : a.RestFrom xs.length → xs.length ≤ 9 → ¬ a.FixedAtBoundary →
      Rule a id xs (some (xs.length + 1, xs ++ [.nil]))
  | lastPacked : a.RestFrom 10 → ¬ a.FixedAtBoundary → 10 ≤ xs.length →
      Rule a id xs (some (10, xs.take 9 ++ [.list id (xs.drop 9)]))
  | unsupported : a.Unpacked xs.length → 10 < xs.length → Rule a id xs none
  | exact : a.Unpacked xs.length → xs.length ≤ 10 → Rule a id xs (some (xs.length, xs))

/-- The parameters that the two packing routines together choose. -/
def Arity.params? (a : Arity) (id : Nat) (xs : List Value) : Option (List Value) :=
  if xs.length ≤ maxParams then some (a.pack id xs)
  else a.split?.map fun k => xs.take k ++ [.list id (xs.drop k)]

/-! ## The packing routines follow the rule -/

section
variable {a : Arity} {id : Nat} {xs : List Value}

theorem Arity.params_packed {k : Nat} (hk : a.RestFrom k) (hlt : k < xs.length) (h : k ≤ 9) :
    a.params? id xs = some (xs.take k ++ [.list id (xs.drop k)]) := by
  have hb := (a.boundary_eq_some_iff k).mpr hk
  unfold params?
  split_ifs with hn
  · simp only [pack, hb, if_pos hlt]
  · have hk' : k < maxParams := Nat.lt_succ_of_le h
    simp only [split?, hb, if_pos hk', Option.map_some]

theorem Arity.params_emptyRest (hk : a.RestFrom xs.length) (h : xs.length ≤ 9)
    (hf : ¬ a.FixedAtBoundary) : a.params? id xs = some (xs ++ [.nil]) := by
  have hb := (a.boundary_eq_some_iff _).mpr hk
  have ha : a.isAmbiguous = false := by rwa [← Bool.not_eq_true, isAmbiguous_iff]
  rw [params?, if_pos (by unfold maxParams; omega)]
  simp only [pack, hb, lt_irrefl, if_false, ha, Bool.not_false, and_self, if_true]
  rw [if_neg (by unfold maxParams; omega)]

/-- With ten arguments and with more the rest begins at the last parameter. -/
theorem Arity.params_lastPacked (hk : a.RestFrom 10) (hf : ¬ a.FixedAtBoundary)
    (h : 10 ≤ xs.length) : a.params? id xs = some (xs.take 9 ++ [.list id (xs.drop 9)]) := by
  have hb := (a.boundary_eq_some_iff 10).mpr hk
  have ha : a.isAmbiguous = false := by rwa [← Bool.not_eq_true, isAmbiguous_iff]
  unfold params?
  split_ifs with hn
  · have hlen : xs.length = 10 := le_antisymm hn h
    simp [pack, hb, ha, hlen, maxParams]
  · simp [split?, hb, ha, maxParams]

theorem Arity.params_unsupported (hu : a.Unpacked xs.length) (h : 10 < xs.length) :
    a.params? id xs = none := by
  rw [params?, if_neg (by unfold maxParams; omega), Option.map_eq_none_iff]
  cases hb : a.boundary with
  | none => simp only [split?, hb]
  | some k =>
    have hk := (a.boundary_eq_some_iff k).mp hb
    have hlt : ¬ k < maxParams := fun hlt => hu.1 k hk (hlt.trans h) (Nat.le_of_lt_succ hlt)
    have hten : ¬ (k = maxParams ∧ !a.isAmbiguous) := by
      rintro ⟨rfl, ha⟩
      refine hu.2.2 ⟨hk, ?_, h.le⟩
      rw [← isAmbiguous_iff]
      simpa using ha
    simp only [split?, hb, if_neg hlt, if_neg hten]

theorem Arity.params_exact (hu : a.Unpacked xs.length) (h : xs.length ≤ 10) :
    a.params? id xs = some xs := by
  rw [params?, if_pos (by unfold maxParams; omega)]
  cases hb : a.boundary with
  | none => simp only [pack, hb]
  | some k =>
    have hk := (a.boundary_eq_some_iff k).mp hb
    have hlt : ¬ k < xs.length := fun hlt => hu.1 k hk hlt (by omega)
    have heq : ¬ (k = xs.length ∧ !a.isAmbiguous) := by
      rintro ⟨rfl, ha⟩
      have hf : ¬ a.FixedAtBoundary := by
        rw [← isAmbiguous_iff]
        simpa using ha
      by_cases h9 : xs.length ≤ 9
      · exact hu.2.1 ⟨hk, h9, hf⟩
      · have hten : xs.length = 10 := by omega
        exact hu.2.2 ⟨hten ▸ hk, hf, hten.ge⟩
    simp only [pack, hb, if_neg hlt, if_neg heq]

theorem Rule.eq_params {d : Option (Nat × List Value)} (h : Rule a id xs d) :
    d = (a.params? id xs).map fun ps => (ps.length, ps) := by
  cases h with
  | packed hk hlt h9 =>
    rw [Arity.params_packed hk hlt h9]
    simp [hlt.le]
  | emptyRest hk h9 hf =>
    rw [Arity.params_emptyRest hk h9 hf]
    simp
  | lastPacked hk hf h10 =>
    rw [Arity.params_lastPacked hk hf h10]
    simp
    omega
  | unsupported hu h10 =>
    rw [Arity.params_unsupported hu h10]
    rfl
  | exact hu h10 =>
    rw [Arity.params_exact hu h10]
    rfl

/-- Some row of the rule applies. -/
theorem Rule.exists (a : Arity) (id : Nat) (xs : List Value) : ∃ d, Rule a id xs d := by
  by_cases h₁ : ∃ k, a.RestFrom k ∧ k < xs.length ∧ k ≤ 9
  · obtain ⟨k, hk, hlt, h9⟩ := h₁
    exact ⟨_, .packed hk hlt h9⟩
  by_cases h₂ : a.RestFrom xs.length ∧ xs.length ≤ 9 ∧ ¬ a.FixedAtBoundary
  · exact ⟨_, .emptyRest h₂.1 h₂.2.1 h₂.2.2⟩
  by_cases h₃ : a.RestFrom 10 ∧ ¬ a.FixedAtBoundary ∧ 10 ≤ xs.length
  · exact ⟨_, .lastPacked h₃.1 h₃.2.1 h₃.2.2⟩
  have hu : a.Unpacked xs.length := ⟨fun k hk hlt h9 => h₁ ⟨k, hk, hlt, h9⟩, h₂, h₃⟩
  by_cases h : 10 < xs.length
  · exact ⟨_, .unsupported hu h⟩
  · exact ⟨_, .exact hu (by omega)⟩

/-- No two rows of the rule differ in what they say of one call. -/
theorem Rule.unique {d e : Option (Nat × List Value)} (hd : Rule a id xs d)
    (he : Rule a id xs e) : d = e :=
  hd.eq_params.trans he.eq_params.symm

end

/-! ## What a call does -/

section
variable {β : Type} (run : Behaviour β)

/-- What comes of going to the slot `j` of `c`. The body in the slot runs once, on the
parameters and on a store that will not use the identity of a packed rest again, and its
result is given back; a closure tells of a failure only that there was no value. An empty
slot is an arity error and changes nothing. -/
inductive Enters (c : Callable) (j : Nat) (params : List Value) (st : Store β) :
    Outcome β → Prop
  | missing : st.body? c j = none →
      Enters c j params st (.error (.invalidArity j c.describe), st)
  | value {body : β} {v : Value} {after : Store β} : st.body? c j = some body →
      run body (st.context c).base params (st.claim 1) = (.ok v, after) →
      Enters c j params st (.ok v, after)
  | nativeError {body : β} {e : CallError} {after : Store β} : st.body? c j = some body →
      c.isClosure = false → run body (st.context c).base params (st.claim 1) = (.error e, after) →
      Enters c j params st (.error e, after)
  | closureError {body : β} {e : CallError} {after : Store β} : st.body? c j = some body →
      c.isClosure = true → run body (st.context c).base params (st.claim 1) = (.error e, after) →
      Enters c j params st (.error (.nativeFailure j c.describe), after)

/-- A decision of the rule is carried out on a call of `c` with `n` arguments. -/
def Follows (c : Callable) (n : Nat) (st : Store β) :
    Option (Nat × List Value) → Outcome β → Prop
  | some (j, params), out => Enters run c j params st out
  | none, out => out = (.error (.unsupportedArity n c.describe), st)

/-- What a source answers that is neither a callable nor a var. -/
def Value.answer (source : Value) (xs : List Value) : Except CallError Value :=
  match source, xs with
  | .map _ es, [k] => .ok ((findEntry es k).getD .nil)
  | .map _ es, [k, default] => .ok ((findEntry es k).getD default)
  | .set _ items, [v] => .ok ((findItem items v).getD .nil)
  | .keyword name, [.map _ es] => .ok ((findEntry es (.keyword name)).getD .nil)
  | .keyword _, [_] => .ok .nil
  | .keyword name, [.map _ es, default] => .ok ((findEntry es (.keyword name)).getD default)
  | .keyword _, [_, default] => .ok default
  | source, xs => .error (.invalidArity xs.length source.text)

/-- The decision on a call with a slice of any length. -/
def Store.resolution (st : Store β) (source : Value) (xs : List Value) : Resolution :=
  if xs.length ≤ maxParams then st.resolve source xs
  else st.resolveRest source (xs.take maxParams) (xs.drop maxParams)

theorem Store.call_eq_perform (source : Value) (xs : List Value) (st : Store β) :
    st.call run source xs = (st.resolution source xs).perform run st := by
  unfold call resolution
  split_ifs <;> rfl

theorem Callable.enters_enter (c : Callable) (params : List Value) (st : Store β) :
    Enters run c params.length params st (c.enter run params st) := by
  unfold enter
  cases hb : st.body? c params.length with
  | none => exact .missing hb
  | some body =>
    rcases hr : run body (st.context c).base params (st.claim 1) with ⟨result, after⟩
    simp only [hr]
    cases result with
    | ok v => exact .value hb hr
    | error e =>
      cases hc : c.isClosure with
      | false =>
        simp only [report, hc, Bool.false_eq_true, if_false]
        exact .nativeError hb hc hr
      | true =>
        simp only [report, hc, if_true]
        exact .closureError hb hc hr

end

namespace Store

variable {β : Type} {st : Store β}

theorem resolution_congr {source source' : Value} (h : st.target source = st.target source')
    (xs : List Value) : st.resolution source xs = st.resolution source' xs := by
  simp only [resolution, resolveRest, resolve, h]

theorem resolution_unbound {v : Var} (h : st.root? v = none) (xs : List Value) :
    st.resolution (.var v) xs = .answer (.error (.unboundVar (v.ns ++ "/" ++ v.name))) := by
  have ht : st.target (.var v) = .error (.unboundVar (v.ns ++ "/" ++ v.name)) := by
    simp only [target, deref, h, Var.qualified]
  simp only [resolution, resolveRest, resolve, ht]
  split_ifs <;> rfl

theorem target_bound {v : Var} {root : Value} (h : st.root? v = some root) :
    st.target (.var v) = .ok root := by
  simp only [target, deref, h]

theorem target_of_not_var (st : Store β) {source : Value} (h : ∀ v, source ≠ .var v) :
    st.target source = .ok source := by
  cases source with
  | var v => exact absurd rfl (h v)
  | _ => rfl

end Store

theorem Arity.split?_lt {a : Arity} {k : Nat} (h : a.split? = some k) : k < maxParams := by
  unfold split? at h
  split at h
  · cases h
  · split_ifs at h with hlt
    · exact Option.some.inj h ▸ hlt
    · have hlt : maxParams - 1 < maxParams := by decide
      exact Option.some.inj h ▸ hlt

theorem Store.resolution_callable {β : Type} (st : Store β) (c : Callable) (xs : List Value) :
    st.resolution (.callable c) xs =
      match c.arity.params? st.next xs with
      | some params => .enter c params
      | none => .answer (.error (.unsupportedArity xs.length c.describe)) := by
  unfold resolution Arity.params?
  split_ifs with hn
  · rfl
  · have hlen : maxParams < xs.length := not_le.mp hn
    have hrest : (xs.drop maxParams).isEmpty = false := by simpa using hlen
    have htotal : (xs.take maxParams).length + (xs.drop maxParams).length = xs.length := by
      rw [← List.length_append, List.take_append_drop]
    simp only [resolveRest, hrest, Bool.false_eq_true, if_false, target, htotal]
    simp only [Value.callable?]
    cases hs : c.arity.split? with
    | none => rfl
    | some k =>
      have hk : k ≤ maxParams := (Arity.split?_lt hs).le
      have hdrop : (xs.take maxParams).drop k ++ xs.drop maxParams = xs.drop k := by
        rw [← List.drop_append_of_le_length (by simp; omega), List.take_append_drop]
      simp only [Option.map_some, hdrop, List.take_take, Nat.min_eq_left hk]

/-! ## Sources that are not callable -/

theorem Value.answer_of_two_lt (source : Value) {xs : List Value} (h : 2 < xs.length) :
    source.answer xs = .error (.invalidArity xs.length source.text) := by
  unfold answer
  split <;> first | rfl | (simp at h)

theorem Lookup.invoke_eq_answer {source : Value} {l : Lookup} (h : Lookup.of? source = some l)
    (xs : List Value) : l.invoke source xs = source.answer xs := by
  cases source with
  | map id es =>
    obtain rfl := Option.some.inj h
    rcases xs with _ | ⟨x, _ | ⟨y, _ | ⟨z, rest⟩⟩⟩ <;> rfl
  | set id items =>
    obtain rfl := Option.some.inj h
    rcases xs with _ | ⟨x, _ | ⟨y, _ | ⟨z, rest⟩⟩⟩ <;> rfl
  | keyword name =>
    obtain rfl := Option.some.inj h
    rcases xs with _ | ⟨x, _ | ⟨y, _ | ⟨z, rest⟩⟩⟩
    · rfl
    · cases x <;> rfl
    · cases x <;> rfl
    · rw [Value.answer_of_two_lt _ (by simp)]
      rfl
  | _ => cases h

theorem Value.answer_of_not_lookup {source : Value} (h : Lookup.of? source = none)
    (xs : List Value) : source.answer xs = .error (.invalidArity xs.length source.text) := by
  cases source <;> first | rfl | (cases h)

theorem Value.text_var (v : Var) : (Value.var v).text = v.text := by
  rw [text, spell, String.ofList_toList]

theorem Store.resolution_answer {β : Type} {st : Store β} {source target : Value}
    (ht : st.target source = .ok target) (hc : target.callable? = none) (xs : List Value) :
    st.resolution source xs = .answer (target.answer xs) := by
  unfold resolution
  split_ifs with hn
  · simp only [resolve, ht, Invocable.of, hc]
    cases hl : Lookup.of? target with
    | none => simp only [Value.answer_of_not_lookup hl]
    | some l => simp only [Lookup.invoke_eq_answer hl]
  · have hlen : maxParams < xs.length := not_le.mp hn
    have hrest : (xs.drop maxParams).isEmpty = false := by simpa using hlen
    have htotal : (xs.take maxParams).length + (xs.drop maxParams).length = xs.length := by
      rw [← List.length_append, List.take_append_drop]
    have htwo : 2 < xs.length := lt_trans (by decide) hlen
    simp only [resolveRest, hrest, Bool.false_eq_true, if_false, ht, hc, htotal,
      Value.answer_of_two_lt target htwo]

/-! ## Every call follows the rule -/

section
variable {β : Type} (run : Behaviour β)

theorem call_callable_follows (c : Callable) (xs : List Value) (st : Store β)
    {d : Option (Nat × List Value)} (h : Rule c.arity st.next xs d) :
    Follows run c xs.length st d (st.call run (.callable c) xs) := by
  rw [h.eq_params, Store.call_eq_perform, Store.resolution_callable]
  cases c.arity.params? st.next xs with
  | none => rfl
  | some params => exact c.enters_enter run params st

/-- A callable is called as the rule says. A var stands for its root, which is looked up
once: an unbound var is an error, and so is a root that is itself a var. Any other source
gives its answer. Only the bodies of callables change the store. -/
theorem call_follows_rule (xs : List Value) (st : Store β) :
    (∀ c : Callable, (∃! d, Rule c.arity st.next xs d) ∧
      ∀ d, Rule c.arity st.next xs d →
        Follows run c xs.length st d (st.call run (.callable c) xs)) ∧
    (∀ v : Var, st.root? v = none →
      st.call run (.var v) xs = (.error (.unboundVar (v.ns ++ "/" ++ v.name)), st)) ∧
    (∀ v w : Var, st.root? v = some (.var w) →
      st.call run (.var v) xs = (.error (.invalidArity xs.length w.text), st)) ∧
    (∀ (v : Var) (root : Value), st.root? v = some root → (∀ w, root ≠ .var w) →
      st.call run (.var v) xs = st.call run root xs) ∧
    (∀ source : Value, source.callable? = none → (∀ v, source ≠ .var v) →
      st.call run source xs = (source.answer xs, st)) := by
  refine ⟨fun c => ⟨?_, fun d => call_callable_follows run c xs st⟩, ?_, ?_, ?_, ?_⟩
  · obtain ⟨d, hd⟩ := Rule.exists c.arity st.next xs
    exact ⟨d, hd, fun e he => he.unique hd⟩
  · intro v h
    rw [Store.call_eq_perform, Store.resolution_unbound h]
    rfl
  · intro v w h
    rw [Store.call_eq_perform, Store.resolution_answer (Store.target_bound h) rfl,
      Value.answer_of_not_lookup rfl, Value.text_var]
    rfl
  · intro v root h hroot
    have ht := (Store.target_bound h).trans (Store.target_of_not_var st hroot).symm
    rw [Store.call_eq_perform, Store.call_eq_perform, Store.resolution_congr ht]
  · intro source hc hv
    rw [Store.call_eq_perform, Store.resolution_answer (Store.target_of_not_var st hv) hc]
    rfl

/-- Twelve arguments for a callable whose rest starts after two of them. -/
theorem call_follows_rule_packed :
    let c : Callable := ⟨7, ⟨0x82⟩, .native "f"⟩
    let xs := (List.range 12).map fun i => Value.integer (Int64.ofNat i)
    let callee : Callee Unit := { entries := ⟨.replicate _ (some ())⟩ }
    let st : Store Unit := { callees := ⟨[(7, callee)]⟩, next := 9 }
    let run : Behaviour Unit := fun _ _ params st => (.ok (.vector st.next params), st.claim 1)
    Enters run c 3 [.integer 0, .integer 1, .list 9 (xs.drop 2)] st
      (st.call run (.callable c) xs) := by
  intro c xs callee st run
  have hrule : Rule c.arity st.next xs (some (3, xs.take 2 ++ [.list 9 (xs.drop 2)])) :=
    .packed ⟨by decide, by decide⟩ (by decide) (by decide)
  exact ((call_follows_rule run xs st).1 c).2 _ hrule

end

end ArityDispatch

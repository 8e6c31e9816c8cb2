import ArityDispatch.Proofs.Calls.Parameters

/-!
# Checked descriptors and the calls they serve

A descriptor that was asked for with a checked request is one of 33: eleven fixed arities
without a rest, and with a rest either ambiguous or not. A callable that implements every
slot is entered by the calls that its descriptor announces: those with no more than the fixed
arity of arguments and, with a rest, all others.

There is one exception, and `granted_shapes_served` states that it is the only one. Under the
ambiguous rest after ten arguments the tenth slot is the fixed one, and there is no eleventh
for the rest. The shape is granted for the sake of its calls with at most ten arguments; those
with more are refused.
-/

namespace ArityDispatch

namespace Arity

/-! ## The fields of an encoded descriptor -/

section
variable (fixed : UInt8) (variadic ambiguous : Bool)

theorem testBit_encode (i : Nat) : (encode fixed variadic ambiguous).bits.toNat.testBit i =
    ((fixed.toNat.testBit i && decide (i < 6)) || (variadic && decide (7 = i)) ||
      (ambiguous && decide (6 = i))) := by
  have hmask : fixedMask.toNat = 2 ^ 6 - 1 := rfl
  have hvariadic : variadicBit.toNat = 2 ^ 7 := rfl
  have hambiguous : ambiguousBit.toNat = 2 ^ 6 := rfl
  cases variadic <;> cases ambiguous <;>
    simp only [encode, UInt8.toNat_or, UInt8.toNat_and, hmask, hvariadic, hambiguous,
      Nat.testBit_or, Nat.testBit_and, Nat.testBit_two_pow_sub_one, Nat.testBit_two_pow,
      UInt8.toNat_zero, Nat.zero_testBit, if_true, if_false, Bool.false_eq_true, Bool.true_and,
      Bool.false_and]

theorem encode_mod : (encode fixed variadic ambiguous).bits.toNat % 64 = fixed.toNat % 64 := by
  refine Nat.eq_of_testBit_eq fun i => ?_
  rw [show 64 = 2 ^ 6 from rfl, Nat.testBit_mod_two_pow, Nat.testBit_mod_two_pow, testBit_encode]
  by_cases hi : i < 6
  · have h6 : ¬ 6 = i := by omega
    have h7 : ¬ 7 = i := by omega
    simp [hi, h6, h7]
  · simp [hi]

end

/-- The descriptor that a checked request is granted, made directly or across the boundary. -/
inductive Granted (fixed : UInt8) (variadic ambiguous : Bool) (a : Arity) : Prop
  | directly : checked fixed variadic ambiguous = .ok a → Granted fixed variadic ambiguous a
  | acrossBoundary : Boundary.describeArity fixed variadic ambiguous = a.bits →
      a.bits ≠ refused → Granted fixed variadic ambiguous a

section
variable {fixed : UInt8} {variadic ambiguous : Bool} {a : Arity}

theorem checked_eq_ok_iff : checked fixed variadic ambiguous = .ok a ↔
    fixed.toNat ≤ 10 ∧ (ambiguous = true → variadic = true) ∧
      encode fixed variadic ambiguous = a := by
  unfold checked
  split_ifs with hfixed hambiguous
  · have hlt : 10 < fixed.toNat := hfixed
    simp only [false_iff, not_and]
    omega
  · simp only [false_iff, not_and]
    cases variadic <;> simp_all
  · have hle : fixed.toNat ≤ 10 := not_lt.mp hfixed
    cases variadic <;> cases ambiguous <;> simp_all

theorem Granted.checked (h : Granted fixed variadic ambiguous a) :
    Arity.checked fixed variadic ambiguous = .ok a := by
  cases h with
  | directly h => exact h
  | acrossBoundary h hrefused =>
    unfold Boundary.describeArity at h
    cases hc : Arity.checked fixed variadic ambiguous with
    | error e =>
      rw [hc] at h
      exact absurd h.symm hrefused
    | ok b =>
      rw [hc] at h
      obtain ⟨bits⟩ := a
      obtain rfl : b.bits = bits := h
      rfl

theorem Granted.restFrom_iff (h : Granted fixed variadic ambiguous a) (k : Nat) :
    a.RestFrom k ↔ variadic = true ∧ k = fixed.toNat := by
  obtain ⟨hle, -, rfl⟩ := checked_eq_ok_iff.mp h.checked
  have hmod : fixed.toNat % 64 = fixed.toNat := Nat.mod_eq_of_lt (by omega)
  rw [RestFrom, testBit_encode, encode_mod, hmod, eq_comm (a := fixed.toNat)]
  simp

theorem Granted.fixedAtBoundary_iff (h : Granted fixed variadic ambiguous a) :
    a.FixedAtBoundary ↔ ambiguous = true := by
  obtain ⟨-, -, rfl⟩ := checked_eq_ok_iff.mp h.checked
  rw [FixedAtBoundary, testBit_encode]
  simp

end

/-! ## Calls that no parameters can be chosen for -/

theorem params_eq_none_iff {a : Arity} {next : Nat} {xs : List Value} :
    a.params? next xs = none ↔ a.Unpacked xs.length ∧ 10 < xs.length := by
  constructor
  · intro h
    obtain ⟨d, hrule⟩ := Rule.exists a next xs
    have hd := hrule.eq_params
    rw [h] at hd
    subst hd
    cases hrule with
    | unsupported hu h10 => exact ⟨hu, h10⟩
  · exact fun h => params_unsupported h.1 h.2

/-- Among the calls that a granted descriptor announces. -/
theorem Granted.params_eq_none_iff {fixed : UInt8} {variadic ambiguous : Bool} {a : Arity}
    (h : Granted fixed variadic ambiguous a) {next : Nat} {xs : List Value}
    (hn : xs.length ≤ fixed.toNat ∨ variadic = true) :
    a.params? next xs = none ↔
      fixed = 10 ∧ variadic = true ∧ ambiguous = true ∧ 10 < xs.length := by
  have hten : fixed = 10 ↔ fixed.toNat = 10 := UInt8.toNat_inj.symm
  have hle := (checked_eq_ok_iff.mp h.checked).1
  rw [Arity.params_eq_none_iff, Unpacked, hten]
  simp only [h.restFrom_iff, h.fixedAtBoundary_iff]
  constructor
  · rintro ⟨⟨hpacked, -, hlast⟩, h10⟩
    have hv : variadic = true := hn.resolve_left (by omega)
    have hfixed : fixed.toNat = 10 := by
      have hnine : ¬ fixed.toNat ≤ 9 := hpacked _ ⟨hv, rfl⟩ (by omega)
      omega
    have ha : ambiguous = true := by
      by_contra hno
      exact hlast ⟨⟨hv, hfixed.symm⟩, hno, h10.le⟩
    exact ⟨hfixed, hv, ha, h10⟩
  · rintro ⟨hfixed, -, ha, h10⟩
    refine ⟨⟨fun k hk _ => by omega, ?_, fun hno => hno.2.1 ha⟩, h10⟩
    rintro ⟨⟨-, hlen⟩, -, -⟩
    omega

end Arity

/-! ## Served calls -/

section
variable {β : Type}

theorem exists_entersWith_iff {source : Value} {c : Callable} {xs : List Value} {st : Store β}
    {route : Route β} (htarget : st.target source = .ok (.callable c))
    (hcarries : Carries source xs st route)
    (hall : ∀ j ≤ maxParams, (st.body? c j).isSome) :
    (∃ params, EntersWith route c params st) ↔ c.arity.params? st.next xs ≠ none := by
  cases hp : c.arity.params? st.next xs with
  | none =>
    simp only [ne_eq, not_true_eq_false, iff_false]
    rintro ⟨params, hentered⟩
    have hroute := hcarries.eq_params htarget echo
    simp [hp, hentered.echo] at hroute
  | some params =>
    simp only [ne_eq, reduceCtorEq, not_false_eq_true, iff_true]
    refine ⟨params, hall _ (Arity.params_shape hp).1, fun run => ?_⟩
    rw [hcarries.eq_params htarget, hp]
    exact c.enters_enter run params st

/-- A callable with a granted descriptor and a body in every slot is called with arguments
that its descriptor announces. On every path the call enters a slot, unless the rest starts
after ten arguments, is ambiguous, and there are more than ten. Such calls are refused. -/
theorem granted_shapes_served {fixed : UInt8} {variadic ambiguous : Bool} {source : Value}
    {c : Callable} {xs : List Value} {st : Store β} {route : Route β}
    (hgranted : Arity.Granted fixed variadic ambiguous c.arity)
    (hall : ∀ j ≤ maxParams, (st.body? c j).isSome)
    (hn : xs.length ≤ fixed.toNat ∨ variadic = true)
    (htarget : st.target source = .ok (.callable c)) (hcarries : Carries source xs st route) :
    ((∃ params, EntersWith route c params st) ↔
      ¬ (fixed = 10 ∧ variadic = true ∧ ambiguous = true ∧ 10 < xs.length)) ∧
    (fixed = 10 ∧ variadic = true ∧ ambiguous = true ∧ 10 < xs.length →
      ∀ run, route run = (.error (.unsupportedArity xs.length c.describe), st)) := by
  refine ⟨?_, fun hrefused run => ?_⟩
  · rw [exists_entersWith_iff htarget hcarries hall, ne_eq, hgranted.params_eq_none_iff hn]
  · rw [hcarries.eq_params htarget, (hgranted.params_eq_none_iff hn).mpr hrefused]

/-- A callable with a body in every slot. -/
def Callee.full : Callee Unit := { entries := ⟨.replicate _ (some ())⟩ }

theorem Callee.isSome_full {c : Callable} {st : Store Unit}
    (h : st.callee? c = some .full) : ∀ j ≤ maxParams, (st.body? c j).isSome := by
  intro j hj
  have hlt : j < entrySlots := Nat.lt_succ_of_le hj
  simp only [Store.body?, h, Option.bind_some, Callee.full, Entries.get?]
  rw [Vector.getElem?_eq_getElem hlt, Vector.getElem_replicate]
  rfl

/-- Eleven arguments for a rest that starts after ten of them. -/
theorem granted_shapes_served_eleven :
    let c : Callable := ⟨7, ⟨0x8A⟩, .closure none⟩
    let st : Store Unit := { callees := ⟨[(7, .full)]⟩, next := 9 }
    let xs := (List.range 11).map fun i => Value.integer (Int64.ofNat i)
    Arity.Granted 10 true false c.arity ∧
      ∃ params, EntersWith (fun run => st.call run (.callable c) xs) c params st := by
  intro c st xs
  have hgranted : Arity.Granted 10 true false c.arity := .acrossBoundary (by decide) (by decide)
  have hcarries : Carries (.callable c) xs st fun run => st.call run (.callable c) xs :=
    .called fun _ => .slice
  have hserved := granted_shapes_served hgranted (Callee.isSome_full rfl) (.inr rfl) rfl hcarries
  exact ⟨hgranted, hserved.1.mpr (by simp)⟩

/-- The ambiguous rest after ten arguments is granted, and eleven arguments enter nothing. -/
theorem ambiguous_ten_not_served :
    let c : Callable := ⟨7, ⟨0xCA⟩, .native "f"⟩
    let st : Store Unit := { callees := ⟨[(7, .full)]⟩, next := 9 }
    let xs := (List.range 11).map fun i => Value.integer (Int64.ofNat i)
    let route : Route Unit := fun run => st.call run (.callable c) xs
    Arity.checked 10 true true = .ok c.arity ∧
      Boundary.describeArity 10 true true = c.arity.bits ∧
      (∀ j ≤ maxParams, (st.body? c j).isSome) ∧
      (∀ run, route run = (.error (.unsupportedArity 11 "f"), st)) ∧
      ¬ ∃ params, EntersWith route c params st := by
  intro c st xs route
  have hgranted : Arity.checked 10 true true = .ok c.arity := rfl
  have hall : ∀ j ≤ maxParams, (st.body? c j).isSome := Callee.isSome_full rfl
  have htarget : st.target (.callable c) = .ok (.callable c) := rfl
  have hcarries : Carries (.callable c) xs st route := .called fun _ => .slice
  have hnone : c.arity.params? st.next xs = none :=
    ((Arity.Granted.directly hgranted).params_eq_none_iff (.inr rfl)).mpr (by decide)
  refine ⟨hgranted, rfl, hall, fun run => ?_, ?_⟩
  · rw [hcarries.eq_params htarget, hnone]
    rfl
  · rw [exists_entersWith_iff htarget hcarries hall]
    exact fun hno => hno hnone

end

end ArityDispatch

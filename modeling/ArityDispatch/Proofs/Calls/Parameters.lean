import ArityDispatch.Proofs.Calls.Paths
import ArityDispatch.Proofs.Values.Literals

/-!
# The parameters of an entered slot

A body is written for one shape of parameters. Either its last parameter is always a rest
that the call has made, or its parameters are always the arguments themselves. The shape
belongs to the slot: a descriptor has at most one slot for a rest, whatever the number of
arguments, and `entered_parameters` states that no call on any path breaks this. A rest is
`nil`, or a new list that is not empty and holds the last arguments; no argument is lost,
repeated or moved.

A path is taken here as what comes of it for each behaviour of the bodies. Since the
behaviour is arbitrary, it shows which body runs and on what.
-/

namespace ArityDispatch

variable {β : Type}

/-- What comes of a call for each behaviour of the bodies. -/
abbrev Route (β : Type) := Behaviour β → Outcome β

/-- The routes from the arguments `xs` to `source`. The store `st` is the one in which all
arguments are there: the entries of a map become vectors before the call is resolved. -/
inductive Carries (source : Value) (xs : List Value) (st : Store β) : Route β → Prop
  | called {route : Route β} : (∀ run, Called run source xs st (route run)) →
      Carries source xs st route
  | collection {before : Store β} {coll : Value} {s : Seq} : coll.seq? = .ok s →
      s.drain before.next = (xs, st.next) → st = { before with next := st.next } →
      Carries source xs st fun run => before.apply run source coll
  | boundary : xs.length ≤ maxParams →
      Carries source xs st fun run => Boundary.call run (some source) (xs.map some) st
  | boundaryCollection {before : Store β} {coll : Value} {s : Seq} : coll.seq? = .ok s →
      s.drain before.next = (xs, st.next) → st = { before with next := st.next } →
      Carries source xs st fun run => Boundary.apply run (some source) (some coll) before

/-- The route goes to the slot for `params` in `c`: there is a body in it, and whatever
bodies do, what comes of the route comes of this body on `params`. -/
def EntersWith (route : Route β) (c : Callable) (params : List Value) (st : Store β) : Prop :=
  (st.body? c params.length).isSome ∧
    ∀ run, Enters run c params.length params st (route run)

/-! ## All routes perform one resolution -/

theorem Store.apply_seq (run : Behaviour β) (source : Value) {coll : Value} {s : Seq}
    {before st : Store β} {xs : List Value} (hs : coll.seq? = .ok s)
    (hdrain : s.drain before.next = (xs, st.next)) (hst : st = { before with next := st.next }) :
    before.apply run source coll = st.call run source xs := by
  simp only [apply, hs, hdrain, callStream_eq_call, ← hst]

theorem Carries.eq_perform {source : Value} {xs : List Value} {st : Store β} {route : Route β}
    (h : Carries source xs st route) (run : Behaviour β) :
    route run = (st.resolution source xs).perform run st := by
  rw [← Store.call_eq_perform]
  cases h with
  | called h => exact (h run).eq_call run
  | collection hs hdrain hst => exact Store.apply_seq run source hs hdrain hst
  | boundary hlen =>
    exact (Boundary.call_some run source xs st).trans
      (Store.callFixed_eq_call run source st hlen)
  | boundaryCollection hs hdrain hst => exact Store.apply_seq run source hs hdrain hst

/-- A call that reaches a callable enters it with the parameters that were chosen, or enters
nothing because none could be. -/
theorem Carries.eq_params {source : Value} {c : Callable} {xs : List Value} {st : Store β}
    {route : Route β} (h : Carries source xs st route)
    (htarget : st.target source = .ok (.callable c)) (run : Behaviour β) :
    route run =
      match c.arity.params? st.next xs with
      | some params => c.enter run params st
      | none => (.error (.unsupportedArity xs.length c.describe), st) := by
  have hcallable : st.target (.callable c) = .ok (.callable c) := rfl
  rw [h.eq_perform, Store.resolution_congr (htarget.trans hcallable.symm),
    Store.resolution_callable]
  cases c.arity.params? st.next xs <;> rfl

/-- Gives its parameters back, so that it tells what was entered. -/
def echo : Behaviour β := fun _ _ params st => (.ok (.list 0 params), st)

theorem EntersWith.echo {route : Route β} {c : Callable} {params : List Value} {st : Store β}
    (h : EntersWith route c params st) : route echo = (.ok (.list 0 params), st.claim 1) := by
  obtain ⟨hbody, henters⟩ := h
  have hout := henters ArityDispatch.echo
  generalize route ArityDispatch.echo = out at hout ⊢
  cases hout with
  | missing hnone => simp [hnone] at hbody
  | value _ hrun => exact hrun ▸ rfl
  | nativeError _ _ hrun => cases hrun
  | closureError _ _ hrun => cases hrun

theorem EntersWith.eq_of_enter {route : Route β} {c : Callable} {params chosen : List Value}
    {st : Store β} (h : EntersWith route c params st)
    (hroute : route ArityDispatch.echo = c.enter ArityDispatch.echo chosen st) :
    params = chosen := by
  rw [h.echo, Callable.enter] at hroute
  cases hb : st.body? c chosen.length with
  | none => simp [hb] at hroute
  | some body => simpa [hb, ArityDispatch.echo, Callable.report] using hroute

/-! ## The slot for a rest -/

/-- The slot that calls with a rest go to. A boundary above ten, and one at ten with a fixed
entry of its own, leave no slot for a rest. -/
def Arity.RestSlot (a : Arity) (j : Nat) : Prop :=
  (∃ k, a.RestFrom k ∧ k ≤ 9 ∧ j = k + 1) ∨ (a.RestFrom 10 ∧ ¬ a.FixedAtBoundary ∧ j = 10)

/-- The parameters are the arguments with a rest in last place, and a rest that is not `nil`
is a collection unlike all those whose identities are below `next`. -/
inductive WithRest (next : Nat) (xs : List Value) : List Value → Prop
  | empty : WithRest next xs (xs ++ [.nil])
  | packed {ys zs : List Value} {id : Nat} : ys ++ zs = xs → zs ≠ [] →
      (∀ vs, Below next vs → Fresh id vs) → WithRest next xs (ys ++ [.list id zs])

theorem Below.fresh {n : Nat} {vs : List Value} (h : Below n vs) : Fresh n vs :=
  fun v hv hi => Nat.lt_irrefl n (h v hv n hi)

theorem WithRest.split {next k : Nat} {xs : List Value} (h : k < xs.length) :
    WithRest next xs (xs.take k ++ [.list next (xs.drop k)]) := by
  refine .packed (List.take_append_drop k xs) ?_ fun vs => Below.fresh
  rwa [ne_eq, List.drop_eq_nil_iff, not_le]

theorem Arity.RestFrom.unique {a : Arity} {k l : Nat} (hk : a.RestFrom k) (hl : a.RestFrom l) :
    k = l :=
  hk.2.symm.trans hl.2

/-- Each row of the rule keeps to the shape of its slot. -/
theorem Rule.shape {a : Arity} {next j : Nat} {xs params : List Value}
    (h : Rule a next xs (some (j, params))) :
    params.length = j ∧ j ≤ 10 ∧ (a.RestSlot j → WithRest next xs params) ∧
      (¬ a.RestSlot j → params = xs) := by
  cases h with
  | @packed k hk hlt h9 =>
    have hslot : a.RestSlot (k + 1) := .inl ⟨k, hk, h9, rfl⟩
    exact ⟨by simp [hlt.le], by omega, fun _ => .split hlt, fun hno => absurd hslot hno⟩
  | emptyRest hk h9 hf =>
    have hslot : a.RestSlot (xs.length + 1) := .inl ⟨_, hk, h9, rfl⟩
    exact ⟨by simp, by omega, fun _ => .empty, fun hno => absurd hslot hno⟩
  | lastPacked hk hf h10 =>
    have hslot : a.RestSlot 10 := .inr ⟨hk, hf, rfl⟩
    exact ⟨by simp; omega, le_rfl, fun _ => .split (by omega), fun hno => absurd hslot hno⟩
  | exact hu h10 =>
    refine ⟨rfl, h10, ?_, fun _ => rfl⟩
    rintro (⟨k, hk, h9, hslot⟩ | ⟨hk, hf, hslot⟩)
    · exact absurd h9 (hu.1 k hk (by omega))
    · exact absurd ⟨hk, hf, hslot.ge⟩ hu.2.2

theorem Arity.params_shape {a : Arity} {next : Nat} {xs params : List Value}
    (h : a.params? next xs = some params) :
    params.length ≤ maxParams ∧ (a.RestSlot params.length → WithRest next xs params) ∧
      (¬ a.RestSlot params.length → params = xs) := by
  obtain ⟨d, hrule⟩ := Rule.exists a next xs
  have hd := hrule.eq_params
  rw [h] at hd
  subst hd
  exact hrule.shape.2

/-! ## Entered slots -/

/-- Every call with `xs` that reaches `c`, on any path, goes to one of the eleven slots, if to
any, and at most nine of ten leading arguments stay in front of a rest. If the slot is
implemented, and so entered, then the slot for a rest receives the arguments with a rest made
by the call, and every other slot receives the arguments as they are. -/
theorem entered_parameters {source : Value} {c : Callable} {xs : List Value} {st : Store β}
    {route : Route β} (htarget : st.target source = .ok (.callable c))
    (hcarries : Carries source xs st route) :
    (∀ chosen, st.resolution source xs = .enter c chosen → chosen.length ≤ maxParams) ∧
      (∀ k, c.arity.split? = some k → k < maxParams) ∧
      ∀ params, EntersWith route c params st →
        (c.arity.RestSlot params.length → WithRest st.next xs params) ∧
        (¬ c.arity.RestSlot params.length → params = xs) := by
  refine ⟨fun chosen hchosen => ?_, fun k => Arity.split?_lt, fun params hentered => ?_⟩
  · have hcallable : st.target (.callable c) = .ok (.callable c) := rfl
    rw [Store.resolution_congr (htarget.trans hcallable.symm), Store.resolution_callable] at hchosen
    cases hp : c.arity.params? st.next xs with
    | none => simp [hp] at hchosen
    | some found =>
      rw [hp] at hchosen
      obtain ⟨-, rfl⟩ := Resolution.enter.inj hchosen
      exact (Arity.params_shape hp).1
  · have hroute := hcarries.eq_params htarget echo
    cases hp : c.arity.params? st.next xs with
    | none => simp [hp, hentered.echo] at hroute
    | some chosen =>
      rw [hp] at hroute
      obtain rfl := hentered.eq_of_enter hroute
      exact (Arity.params_shape hp).2

/-- Ten arguments across the boundary, for a var whose root takes a rest from the tenth on. -/
theorem entered_parameters_tenth_packed :
    let c : Callable := ⟨7, ⟨0x8A⟩, .closure (some "f")⟩
    let v : Var := ⟨5, "user", "f"⟩
    let st : Store Unit :=
      { callees := ⟨[(7, { entries := ⟨.replicate _ (some ())⟩ })]⟩
        roots := ⟨[(5, some (.callable c))]⟩
        next := 9 }
    let xs := (List.range 10).map fun i => Value.integer (Int64.ofNat i)
    let route : Route Unit := fun run => Boundary.call run (some (.var v)) (xs.map some) st
    let params := xs.take 9 ++ [.list 9 [.integer 9]]
    EntersWith route c params st ∧ c.arity.RestSlot 10 ∧ WithRest 9 xs params := by
  intro c v st xs route params
  have hcarries : Carries (.var v) xs st route := .boundary (by decide)
  have hrest : c.arity.RestFrom 10 := ⟨by decide, by decide⟩
  have hfixed : ¬ c.arity.FixedAtBoundary := Bool.eq_false_iff.mp (by decide)
  have htarget : st.target (.var v) = .ok (.callable c) := rfl
  have hentered : EntersWith route c params st := by
    refine ⟨rfl, fun run => ?_⟩
    rw [hcarries.eq_params htarget run,
      Arity.params_lastPacked hrest hfixed (by decide)]
    exact c.enters_enter run params st
  have hslot : c.arity.RestSlot 10 := .inr ⟨hrest, hfixed, rfl⟩
  have hparams := (entered_parameters htarget hcarries).2.2 params hentered
  exact ⟨hentered, hslot, hparams.1 hslot⟩

end ArityDispatch

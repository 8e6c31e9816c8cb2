import ArityDispatch.Body
import ArityDispatch.Proofs.Calls.Parameters

/-!
# Closures and natives obey the same rules

One descriptor and one family of bodies can stand behind a native callable or behind a
closure. A body of the closure cannot say why it failed, so the two families need only agree
on values, on whether they fail, and on the store they leave: then the two callables are
counterparts.

`closures_and_natives_correspond` calls counterparts in one state with the same arguments, on
whatever paths. They enter the same slot with the same parameters, or neither enters any, and
they leave the same store. What they tell differs only in the description of the callee and
in the failure of a body, which a closure reports under its own name.
-/

namespace ArityDispatch

variable {β : Type}

/-- Both outcomes are the same value or both are failures, and the store is the same. -/
structure Outcome.Matches (out out' : Outcome β) : Prop where
  value : ∀ v, out.1 = .ok v ↔ out'.1 = .ok v
  store : out.2 = out'.2

/-- A native `n` and a closure `c` with one descriptor, whose bodies do the same slot by slot.
Each body receives the base of its own context. -/
structure Counterparts (run : Behaviour β) (st : Store β) (n c : Callable) : Prop where
  native : n.isClosure = false
  closure : c.isClosure = true
  arity : n.arity = c.arity
  bodies : ∀ k, Option.Rel
    (fun b b' => ∀ params before, Outcome.Matches (run b (st.context n).base params before)
      (run b' (st.context c).base params before))
    (st.body? n k) (st.body? c k)

/-- Two routes to `n` and `c` with the same arguments. Both are resolved, on any path each and
from any source that stands for the callable, or both go straight to the slot for the number
of arguments. -/
inductive SideBySide (n c : Callable) (xs : List Value) (st : Store β) : Route β → Route β → Prop
  | resolved {source source' : Value} {route route' : Route β} :
      st.target source = .ok (.callable n) → st.target source' = .ok (.callable c) →
      Carries source xs st route → Carries source' xs st route' →
      SideBySide n c xs st route route'
  | direct : SideBySide n c xs st (fun run => n.enter run xs st) fun run => c.enter run xs st

/-- The errors that a closure tells of: each names the closure itself. -/
inductive Callable.OwnError (c : Callable) : CallError → Prop
  | invalidArity (j : Nat) : OwnError c (.invalidArity j c.describe)
  | unsupportedArity (n : Nat) : OwnError c (.unsupportedArity n c.describe)
  | nativeFailure (j : Nat) : OwnError c (.nativeFailure j c.describe)

/-! ## Going to one slot -/

section
variable {run : Behaviour β} {st : Store β} {n c : Callable} {params : List Value}
  {route : Route β} {body : β}

theorem Callable.enter_of_body (hbody : st.body? c params.length = some body) :
    c.enter run params st =
      (c.report params.length (run body (st.context c).base params (st.claim 1)).1,
        (run body (st.context c).base params (st.claim 1)).2) := by
  simp only [enter, hbody]

theorem Callable.enter_of_no_body (hbody : st.body? c params.length = none) :
    c.enter run params st = (.error (.invalidArity params.length c.describe), st) := by
  simp only [enter, hbody]

theorem Callable.report_eq_ok_iff (c : Callable) {slot : Nat} {result : Except CallError Value}
    {v : Value} : c.report slot result = .ok v ↔ result = .ok v := by
  cases result <;> simp [report]

theorem Callable.enter_error_own (hclosure : c.isClosure = true) {e : CallError}
    (h : (c.enter run params st).1 = .error e) : c.OwnError e := by
  cases hbody : st.body? c params.length with
  | none =>
    rw [enter_of_no_body hbody] at h
    obtain rfl := Except.error.inj h
    exact .invalidArity _
  | some body =>
    rw [enter_of_body hbody] at h
    cases hresult : (run body (st.context c).base params (st.claim 1)).1 with
    | ok v => simp [hresult, report] at h
    | error cause =>
      simp only [hresult, report, hclosure, if_true] at h
      obtain rfl := Except.error.inj h
      exact .nativeFailure _

/-- A route that goes to the slot for `params` enters it if there is a body, and nothing else. -/
theorem entersWith_iff_of_enter (hroute : ∀ run, route run = c.enter run params st)
    (entered : List Value) :
    EntersWith route c entered st ↔ entered = params ∧ (st.body? c params.length).isSome := by
  constructor
  · intro h
    obtain rfl := h.eq_of_enter (hroute echo)
    exact ⟨rfl, h.1⟩
  · rintro ⟨rfl, hbody⟩
    exact ⟨hbody, fun run => hroute run ▸ c.enters_enter run entered st⟩

/-- What does not depend on bodies runs none. -/
theorem not_entersWith_of_constant {result : Except CallError Value} {before : Store β}
    (hroute : ∀ run, route run = (result, st)) (entered : List Value) :
    ¬ EntersWith route c entered before := by
  intro h
  have hecho := h.echo
  have hsilent := h.2 fun _ _ _ st => (.ok .nil, st)
  rw [hroute] at hecho hsilent
  cases hecho
  cases hsilent with
  | value _ hrun => cases hrun

theorem not_entersWith_of_error {e : CallError} (hroute : ∀ run, route run = (.error e, st))
    (entered : List Value) : ¬ EntersWith route c entered st :=
  not_entersWith_of_constant hroute entered

end

/-! ## Counterparts -/

namespace Counterparts

variable {run : Behaviour β} {st : Store β} {n c : Callable} {xs params : List Value}
  {route route' : Route β}

theorem isSome_body (h : Counterparts run st n c) (k : Nat) :
    (st.body? n k).isSome = (st.body? c k).isSome := by
  have hrel := h.bodies k
  generalize st.body? n k = b at hrel
  generalize st.body? c k = b' at hrel
  cases hrel <;> rfl

/-- Going to the same slot of both gives matching outcomes. -/
theorem enter_matches (h : Counterparts run st n c) (params : List Value) :
    Outcome.Matches (n.enter run params st) (c.enter run params st) := by
  have hrel := h.bodies params.length
  generalize hb : st.body? n params.length = b at hrel
  generalize hb' : st.body? c params.length = b' at hrel
  cases hrel with
  | none =>
    rw [Callable.enter_of_no_body hb, Callable.enter_of_no_body hb']
    exact ⟨fun v => by simp, rfl⟩
  | some hmatch =>
    have hout := hmatch params (st.claim 1)
    rw [Callable.enter_of_body hb, Callable.enter_of_body hb']
    refine ⟨fun v => ?_, hout.store⟩
    rw [Callable.report_eq_ok_iff, Callable.report_eq_ok_iff]
    exact hout.value v

/-- The native passes the cause of a failure on, the closure keeps it to itself. -/
theorem enter_failed (h : Counterparts run st n c) {body : β} {e : CallError}
    (hbody : st.body? n params.length = some body)
    (hfail : (run body (st.context n).base params (st.claim 1)).1 = .error e) :
    (n.enter run params st).1 = .error e ∧
      (c.enter run params st).1 = .error (.nativeFailure params.length c.describe) := by
  have hnative : (n.enter run params st).1 = .error e := by
    rw [Callable.enter_of_body hbody]
    simp only [hfail, Callable.report, h.native, Bool.false_eq_true, if_false]
  refine ⟨hnative, ?_⟩
  have hsome : (st.body? c params.length).isSome := by
    rw [← h.isSome_body, hbody]
    rfl
  obtain ⟨body', hbody'⟩ := Option.isSome_iff_exists.mp hsome
  have hmatch := h.enter_matches params
  rw [Callable.enter_of_body hbody'] at hmatch ⊢
  cases hresult : (run body' (st.context c).base params (st.claim 1)).1 with
  | ok v =>
    have hv := (hmatch.value v).mpr (by rw [hresult]; rfl)
    simp [hnative] at hv
  | error cause => simp only [Callable.report, h.closure, if_true]

/-- One family of bodies behind both, and contexts of the same base. -/
theorem of_callees (hnative : n.isClosure = false) (hclosure : c.isClosure = true)
    (harity : n.arity = c.arity) {entries : Entries β} {context context' : Context}
    (hn : st.callee? n = some { context, entries })
    (hc : st.callee? c = some { context := context', entries })
    (hbase : context.base = context'.base) :
    Counterparts run st n c where
  native := hnative
  closure := hclosure
  arity := harity
  bodies k := by
    have hbodies : st.body? n k = entries.get? k ∧ st.body? c k = entries.get? k := by
      simp [Store.body?, hn, hc]
    have hbases : (st.context n).base = (st.context c).base := by
      simp [Store.context, hn, hc, hbase]
    rw [hbodies.1, hbodies.2, hbases]
    cases entries.get? k with
    | none => exact .none
    | some body => exact .some fun _ _ => ⟨fun _ => .rfl, rfl⟩

/-- Both routes go to the slot for the same parameters, or both are refused as too long. -/
theorem decide_alike (h : Counterparts run st n c) (hroutes : SideBySide n c xs st route route') :
    (∃ params, (∀ run, route run = n.enter run params st) ∧
      ∀ run, route' run = c.enter run params st) ∨
    ((∀ run, route run = (.error (.unsupportedArity xs.length n.describe), st)) ∧
      ∀ run, route' run = (.error (.unsupportedArity xs.length c.describe), st)) := by
  cases hroutes with
  | direct => exact .inl ⟨xs, fun _ => rfl, fun _ => rfl⟩
  | resolved htarget htarget' hcarries hcarries' =>
    have hroute := hcarries.eq_params htarget
    have hroute' := hcarries'.eq_params htarget'
    rw [← h.arity] at hroute'
    cases hp : n.arity.params? st.next xs with
    | some params =>
      simp only [hp] at hroute hroute'
      exact .inl ⟨params, hroute, hroute'⟩
    | none =>
      simp only [hp] at hroute hroute'
      exact .inr ⟨hroute, hroute'⟩

end Counterparts

/-- A native and a closure that are counterparts are called in one state with the same
arguments. They enter the same slot with the same parameters, give the same values and leave
the same store. If a body was entered and failed, the native gives its error and the closure
a failure of that slot. If nothing was entered, both give the same arity error, each with its
own description, and the store is as before. No other error ever comes from the closure. -/
theorem closures_and_natives_correspond {run : Behaviour β} {st : Store β} {n c : Callable}
    (h : Counterparts run st n c) {xs : List Value} {route route' : Route β}
    (hroutes : SideBySide n c xs st route route') :
    (∀ params, EntersWith route n params st ↔ EntersWith route' c params st) ∧
    (∀ v, (route run).1 = .ok v ↔ (route' run).1 = .ok v) ∧
    (route run).2 = (route' run).2 ∧
    (∀ params body e, EntersWith route n params st → st.body? n params.length = some body →
      (run body (st.context n).base params (st.claim 1)).1 = .error e →
      (route run).1 = .error e ∧
        (route' run).1 = .error (.nativeFailure params.length c.describe)) ∧
    ((∀ params, ¬ EntersWith route n params st) →
      (∃ j, route run = (.error (.invalidArity j n.describe), st) ∧
        route' run = (.error (.invalidArity j c.describe), st)) ∨
      (∃ k, route run = (.error (.unsupportedArity k n.describe), st) ∧
        route' run = (.error (.unsupportedArity k c.describe), st))) ∧
    ∀ e, (route' run).1 = .error e → c.OwnError e := by
  rcases h.decide_alike hroutes with ⟨params, hroute, hroute'⟩ | ⟨hroute, hroute'⟩
  · have hmatch := h.enter_matches params
    have hsome := h.isSome_body params.length
    have henters := entersWith_iff_of_enter hroute
    have henters' := entersWith_iff_of_enter hroute'
    rw [hroute, hroute']
    refine ⟨fun entered => ?_, hmatch.value, hmatch.store, fun entered body e hin hbody hfail => ?_,
      fun hnone => .inl ?_, fun e => Callable.enter_error_own h.closure⟩
    · rw [henters, henters', hsome]
    · obtain ⟨rfl, -⟩ := (henters entered).mp hin
      exact h.enter_failed hbody hfail
    · have hbody : st.body? n params.length = none := by
        cases hb : st.body? n params.length with
        | none => rfl
        | some body => exact absurd ((henters params).mpr ⟨rfl, by rw [hb]; rfl⟩) (hnone params)
      have hbody' : st.body? c params.length = none := by simpa [hbody] using hsome
      exact ⟨params.length, Callable.enter_of_no_body hbody, Callable.enter_of_no_body hbody'⟩
  · have hnone := not_entersWith_of_error (c := n) hroute
    have hnone' := not_entersWith_of_error (c := c) hroute'
    rw [hroute, hroute']
    refine ⟨fun params => iff_of_false (hnone params) (hnone' params), fun v => by simp, rfl,
      fun params _ _ hin => absurd hin (hnone params), fun _ => .inr ⟨xs.length, rfl, rfl⟩,
      fun e he => ?_⟩
    obtain rfl := Except.error.inj he
    exact .unsupportedArity _

/-- A failing body behind both, for a rest that starts after one argument: the native gets a
list, and the closure is the root of a var and is called across the boundary. -/
theorem closures_and_natives_correspond_failing :
    let entries : Entries Body := ⟨(Vector.replicate _ none).set 2 (some .fail)⟩
    let n : Callable := ⟨1, ⟨0x81⟩, .native "f"⟩
    let c : Callable := ⟨2, ⟨0x81⟩, .closure (some "g")⟩
    let v : Var := ⟨3, "user", "g"⟩
    let st : Store Body :=
      { callees := ⟨[(1, { entries }), (2, { entries })]⟩
        roots := ⟨[(3, some (.callable c))]⟩
        next := 9 }
    let xs : List Value := [.integer 1, .integer 2, .integer 3]
    let params : List Value := [.integer 1, .list 9 [.integer 2, .integer 3]]
    let route : Route Body := fun run => st.apply run (.callable n) (.list 5 xs)
    let route' : Route Body := fun run => Boundary.call run (some (.var v)) (xs.map some) st
    EntersWith route n params st ∧ EntersWith route' c params st ∧
      (route Body.run).1 = .error (.notSeqable "raised") ∧
      (route' Body.run).1 = .error (.nativeFailure 2 "#<closure g>") := by
  intro entries n c v st xs params route route'
  have hn : st.callee? n = some { entries } := rfl
  have hc : st.callee? c = some { entries } := rfl
  have hcounterparts : Counterparts Body.run st n c := .of_callees rfl rfl rfl hn hc rfl
  have hcarries : Carries (.callable n) xs st route := .called fun _ => .list 5
  have hcarries' : Carries (.var v) xs st route' := .boundary (by decide)
  have hroutes : SideBySide n c xs st route route' := .resolved rfl rfl hcarries hcarries'
  have hrest : n.arity.RestFrom 1 := ⟨by decide, by decide⟩
  have hparams : n.arity.params? st.next xs = some params :=
    Arity.params_packed hrest (by decide) (by decide)
  have hroute : ∀ run, route run = n.enter run params st := fun run => by
    rw [hcarries.eq_params rfl run, hparams]
  have hentered : EntersWith route n params st :=
    (entersWith_iff_of_enter hroute params).mpr ⟨rfl, rfl⟩
  have hboth := closures_and_natives_correspond hcounterparts hroutes
  have hfailed := hboth.2.2.2.1 params .fail (.notSeqable "raised") hentered rfl rfl
  exact ⟨hentered, (hboth.1 params).mp hentered, hfailed.1, hfailed.2⟩

end ArityDispatch

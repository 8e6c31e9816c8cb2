import ArityDispatch.Body
import ArityDispatch.Proofs.Calls.Parameters
import ArityDispatch.Proofs.Slots.History

/-!
# What calls add to a history

A call is no operation of its own. It draws an identity and runs a body, so what it does to the
store is what the body does, and what it adds to the log is what the body adds. How it ends adds
nothing: an error that a body raises, or that it is given by another body and drops, leaves no
trace. Only an operation across the boundary leaves its own error, after everything that its
bodies have added.

A journal tells for each body what running it adds. If bodies change the store as their journal
says, then every call on every path does, however deeply bodies call each other. The bodies of
the language have such a journal, and nothing but coming back across the boundary adds to it.
-/

namespace ArityDispatch

variable {β : Type}

/-- What running a body adds to a log. -/
abbrev Journal (β : Type) := β → Option Int64 → List Value → Store β → List (Event β)

/-! ## Journals of calls -/

/-- What a call adds to the log once it is decided: what the body that it enters adds. -/
def Resolution.told (journal : Journal β) (r : Resolution) (st : Store β) : List (Event β) :=
  match r with
  | .enter c params =>
    match st.body? c params.length with
    | some body => journal body (st.context c).base params (st.claim 1)
    | none => []
  | .answer _ => []

/-- What a call with the elements of a collection adds. -/
def Store.toldApply (journal : Journal β) (source collection : Value) (st : Store β) :
    List (Event β) :=
  match collection.seq? with
  | .error _ => []
  | .ok s =>
    let (args, next) := s.drain st.next
    ({ st with next }.resolution source args).told journal { st with next }

/-- What the bodies of a call across the boundary add. -/
def Boundary.told (journal : Journal β) (f : Option Value) (args : List (Option Value))
    (st : Store β) : List (Event β) :=
  match require f "callee", requireArgs 1 args with
  | .ok f, .ok args => (st.resolve f args).told journal st
  | _, _ => []

def Boundary.toldApply (journal : Journal β) (f collection : Option Value) (st : Store β) :
    List (Event β) :=
  match require f "callee", require collection "collection" with
  | .ok f, .ok collection => st.toldApply journal f collection
  | _, _ => []

/-! ## What bodies keep, calls keep -/

/-- A relation between a store, what is added to the log, and a later store, that drawing
identities does not break. -/
structure CallFrame (R : Store β → List (Event β) → Store β → Prop) : Prop where
  claim : ∀ st n, R st [] (st.claim n)
  trans : ∀ {st mid after log log'}, R st log mid → R mid log' after → R st (log ++ log') after

/-- Running a body keeps the relation, with what the journal says. -/
def Behaviour.Keeps (run : Behaviour β) (journal : Journal β)
    (R : Store β → List (Event β) → Store β → Prop) : Prop :=
  ∀ body base args st, R st (journal body base args st) (run body base args st).2

namespace CallFrame

variable {R : Store β → List (Event β) → Store β → Prop} {run : Behaviour β}
  {journal : Journal β} {st : Store β}

theorem refl (hR : CallFrame R) (st : Store β) : R st [] st := hR.claim st 0

theorem perform (hR : CallFrame R) (hrun : run.Keeps journal R) (r : Resolution) (st : Store β) :
    R st (r.told journal st) (r.perform run st).2 := by
  cases r with
  | answer result => exact hR.refl st
  | enter c params =>
    simp only [Resolution.told, Resolution.perform, Callable.enter]
    cases st.body? c params.length with
    | none => exact hR.refl st
    | some body => exact hR.trans (hR.claim st 1) (hrun body _ params _)

theorem call (hR : CallFrame R) (hrun : run.Keeps journal R) (source : Value) (args : List Value)
    (st : Store β) : R st ((st.resolution source args).told journal st)
      (st.call run source args).2 := by
  rw [Store.call_eq_perform]
  exact hR.perform hrun _ st

theorem apply (hR : CallFrame R) (hrun : run.Keeps journal R) (source collection : Value)
    (st : Store β) :
    R st (st.toldApply journal source collection) (st.apply run source collection).2 := by
  unfold Store.apply Store.toldApply
  cases collection.seq? with
  | error e => exact hR.refl st
  | ok s =>
    have hdrawn : ∃ n, (s.drain st.next).2 = st.next + n := by
      cases s with
      | items vs => exact ⟨0, rfl⟩
      | entries es => exact ⟨es.length, rfl⟩
    obtain ⟨n, hn⟩ := hdrawn
    have hstore : { st with next := (s.drain st.next).2 } = st.claim n := by rw [hn, Store.claim]
    simp only [hstore, Store.callStream_eq_call]
    exact hR.trans (hR.claim st n) (hR.call hrun source _ _)

theorem boundaryCall (hR : CallFrame R) (hrun : run.Keeps journal R) (f : Option Value)
    (args : List (Option Value)) (st : Store β) :
    R st (Boundary.told journal f args st) (Boundary.call run f args st).2 := by
  unfold Boundary.call Boundary.told
  cases Boundary.require f "callee" with
  | error e => exact hR.refl st
  | ok f =>
    cases Boundary.requireArgs 1 args with
    | error e => exact hR.refl st
    | ok args => exact hR.perform hrun (st.resolve f args) st

theorem boundaryApply (hR : CallFrame R) (hrun : run.Keeps journal R) (f collection : Option Value)
    (st : Store β) :
    R st (Boundary.toldApply journal f collection st) (Boundary.apply run f collection st).2 := by
  unfold Boundary.apply Boundary.toldApply
  cases Boundary.require f "callee" with
  | error e => exact hR.refl st
  | ok f =>
    cases Boundary.require collection "collection" with
    | error e => exact hR.refl st
    | ok collection => exact hR.apply hrun f collection st

/-- An operation across the boundary leaves its own error last. -/
theorem finish (hR : CallFrame R) (hrecord : ∀ st env e, R st [.raised env e] (st.record env e))
    {log : List (Event β)} {out : Outcome β} (h : R st log out.2) (env : String) :
    R st (log ++ Event.own env out.1) (Boundary.finish env out).2 := by
  obtain ⟨result, after⟩ := out
  cases result with
  | ok v => rwa [Event.own, List.append_nil]
  | error e => exact hR.trans h (hrecord after env e)

end CallFrame

/-! ## The bodies of the language -/

namespace Body

/-- What running a body adds to the log, with at most `rounds` nested entries left. -/
def journalFor : Nat → Journal Body
  | 0, _, _, _, _ => []
  | rounds + 1, body, _, args, st =>
    match body, args with
    | .call, f :: rest | attempt, f :: rest => (st.resolution f rest).told (journalFor rounds) st
    | .apply, f :: rest =>
      ((f :: rest).getLast?.map fun collection =>
        st.toldApply (journalFor rounds) f collection).getD []
    | reenter env, f :: rest =>
      if (st.environment? env).isSome then
        Boundary.told (journalFor rounds) (some f) (rest.map some) st ++
          Event.own env (Boundary.call (runFor rounds) (some f) (rest.map some) st).1
      else []
    | _, _ => []

def journal : Journal Body := fun body base args st =>
  journalFor ((Value.refsItems args).length + 1) body base args st

/-- A relation that nothing breaks that a body of the language does to a store. -/
structure Frame (R : Store Body → List (Event Body) → Store Body → Prop) : Prop
    extends CallFrame R where
  bind : ∀ st v value, R st [] (st.bind v value)
  record : ∀ st env e, R st [.raised env e] (st.record env e)
  intern : ∀ {st : Store Body} {env e} (ns name : String), st.environment? env = some e →
    R st [] ((e.intern st ns name).2.2.setEnvironment env (e.intern st ns name).2.1)

variable {R : Store Body → List (Event Body) → Store Body → Prop}

theorem Frame.keeps_runFor (hR : Frame R) (rounds : Nat) :
    Behaviour.Keeps (runFor rounds) (journalFor rounds) R := by
  -- a nested entry has one round fewer, so what calls keep follows from the rounds before
  induction rounds with
  | zero => exact fun _ _ _ st => hR.refl st
  | succ rounds ih =>
    intro body base args st
    cases body with
    | record => exact hR.claim st 1
    | ctx => exact hR.claim st 1
    | sum =>
      simp only [runFor]
      cases total? (base.getD 0) args <;> exact hR.refl st
    | fail => exact hR.refl st
    | call =>
      cases args with
      | nil => exact hR.refl st
      | cons f rest => exact hR.call ih f rest st
    | apply =>
      cases args with
      | nil => exact hR.refl st
      | cons f rest =>
        simp only [runFor, List.head?_cons, List.getLast?_cons, journalFor]
        exact hR.apply ih f (rest.getLast?.getD f) st
    | rebind =>
      simp only [runFor]
      split
      · next v value _ _ => exact hR.bind st v value
      · exact hR.refl st
    | attempt =>
      cases args with
      | nil => exact hR.refl st
      | cons f rest => exact hR.call ih f rest st
    | reenter env =>
      cases args with
      | nil => exact hR.refl st
      | cons f rest =>
        cases he : st.environment? env with
        | none =>
          simp only [runFor, journalFor, Boundary.perform, he]
          exact hR.refl st
        | some e =>
          simp only [runFor, journalFor, Boundary.perform, he]
          exact hR.finish hR.record (hR.boundaryCall ih (some f) (rest.map some) st) env
    | intern env =>
      simp only [runFor]
      split
      · next name e _ he => exact hR.intern e.settings.ns name he
      · exact hR.refl st

theorem Frame.keeps_run (hR : Frame R) : Behaviour.Keeps run journal R :=
  fun body base args st => hR.keeps_runFor _ body base args st

/-! ### Bodies that stay inside -/

/-- The body does not come back across the boundary. -/
def staysInside : Body → Bool
  | reenter _ => false
  | _ => true

end Body

/-- No entry comes back across the boundary. -/
def Store.StaysInside (st : Store Body) : Prop :=
  ∀ c slot body, st.body? c slot = some body → body.staysInside = true

section
variable {journal : Journal Body} {st : Store Body}

theorem Resolution.told_eq_nil (r : Resolution) (hst : st.StaysInside)
    (h : ∀ body, body.staysInside = true → ∀ base args, journal body base args (st.claim 1) = []) :
    r.told journal st = [] := by
  cases r with
  | answer result => rfl
  | enter c params =>
    simp only [told]
    cases hbody : st.body? c params.length with
    | none => rfl
    | some body => exact h body (hst c _ body hbody) _ params

theorem Store.toldApply_eq_nil (h : ∀ n (r : Resolution), r.told journal { st with next := n } = [])
    (source collection : Value) : st.toldApply journal source collection = [] := by
  unfold toldApply
  cases collection.seq? with
  | error e => rfl
  | ok s => exact h _ _

/-- However many calls are nested and however they fail, bodies that stay inside add nothing. -/
theorem Body.journalFor_eq_nil (rounds : Nat) {body : Body} (h : body.staysInside = true)
    (base : Option Int64) (args : List Value) (hst : st.StaysInside) :
    journalFor rounds body base args st = [] := by
  induction rounds generalizing st body base args with
  | zero => rfl
  | succ rounds ih =>
    have htold : ∀ n (r : Resolution), r.told (journalFor rounds) { st with next := n } = [] :=
      fun n r => r.told_eq_nil hst fun body hbody base args => ih hbody base args hst
    cases args with
    | nil => cases body <;> rfl
    | cons f rest =>
      cases body with
      | call => exact htold st.next _
      | attempt => exact htold st.next _
      | apply =>
        have happly := Store.toldApply_eq_nil htold f
        simp only [journalFor, happly, List.getLast?_cons, Option.map_some, Option.getD_some]
      | reenter env => cases h
      | _ => rfl

namespace Store.StaysInside

/-- What stays inside does not depend on the next free identity. -/
theorem withNext (hst : st.StaysInside) (next : Nat) : { st with next }.StaysInside := hst

theorem told_eq_nil (hst : st.StaysInside) (r : Resolution) : r.told Body.journal st = [] :=
  r.told_eq_nil hst fun _ hbody base args => Body.journalFor_eq_nil _ hbody base args hst

theorem toldApply_eq_nil (hst : st.StaysInside) (source collection : Value) :
    st.toldApply Body.journal source collection = [] :=
  Store.toldApply_eq_nil (fun n r => (hst.withNext n).told_eq_nil r) source collection

end Store.StaysInside

end

/-! ## Calls continue histories -/

/-- Bodies may make and bind what they like, offer entries to any closure, use environments and
call anything, but they have no other way to change a store. -/
def Behaviour.Lawful (run : Behaviour β) : Prop :=
  ∀ body base args (st : Store β), ∃ log, st.Becomes log (run body base args st).2

namespace Store

variable {st after : Store β} {run : Behaviour β}

theorem callFrame_becomes : CallFrame (Becomes (β := β)) where
  claim _ n := .operate .refl (.claim n)
  trans h h' := h.trans h'

theorem becomes_perform (hrun : run.Lawful) (r : Resolution) (st : Store β) :
    ∃ log, st.Becomes log (r.perform run st).2 := by
  choose journal hjournal using hrun
  exact ⟨_, callFrame_becomes.perform hjournal r st⟩

theorem becomes_carries (hrun : run.Lawful) {source : Value} {xs : List Value} {route : Route β}
    (h : Carries source xs st route) : ∃ log, st.Becomes log (route run).2 := by
  rw [h.eq_perform]
  exact becomes_perform hrun _ st

/-- An operation across the boundary adds its own error to what its bodies add. -/
theorem becomes_boundary {env : String} {operation : String → Environment → Store β → Outcome β}
    {log : List (Event β)} {pointer : Option Value}
    (hop : ∀ e, st.environment? env = some e → st.Becomes log (operation env e st).2)
    (h : Boundary.perform (some env) operation st = some (pointer, after)) :
    ∃ e, st.environment? env = some e ∧
      st.Becomes (log ++ Event.own env (operation env e st).1) after := by
  obtain ⟨e, he, hfinish⟩ := Option.map_eq_some_iff.mp h
  obtain rfl : (Boundary.finish env (operation env e st)).2 = after := by rw [hfinish]
  exact ⟨e, he, callFrame_becomes.finish (fun _ env e => .operate .refl (.record env e))
    (hop e he) env⟩

end Store

theorem Body.frame_becomes : Body.Frame Store.Becomes where
  toCallFrame := Store.callFrame_becomes
  bind _ v value := .operate .refl (.bind v value)
  record _ env e := .operate .refl (.record env e)
  intern ns name he := .operate .refl (.intern ns name he)

/-- The bodies of the language change a store as their journal says. -/
theorem Body.becomes_run : Behaviour.Keeps Body.run Body.journal Store.Becomes :=
  Body.frame_becomes.keeps_run

theorem Body.lawful_run : Behaviour.Lawful Body.run :=
  fun body base args st => ⟨_, becomes_run body base args st⟩

end ArityDispatch

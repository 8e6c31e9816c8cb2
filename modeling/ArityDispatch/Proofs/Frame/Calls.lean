import ArityDispatch.Proofs.Calls.VarSources
import ArityDispatch.Proofs.Frame.Sessions

/-!
# Calls that enter nothing

A call can fail before it enters anything: the collection is no collection, the var has no root,
the source is no callable, the callable takes no rest, or the slot is empty. A map, a set or a
keyword in callee position never enters anything. Such a call leaves the store as it is, whatever
bodies would have done, and a session stays as it is as a whole. Across the boundary the error
is left in the environment that the call was for, and in no other.

Every way to call makes one decision, from the source and the arguments alone, and carries it out
on the store as it was. The decision is to enter a callable, or an answer; and to enter an empty
slot is an answer too.
-/

namespace ArityDispatch

variable {β : Type}

/-- The ways to call a source, with any arguments or any collection. -/
inductive Calling (st : Store β) (source : Value) : Route β → Prop
  | called {xs : List Value} {route : Route β} : (∀ run, Called run source xs st (route run)) →
      Calling st source route
  | apply (collection : Value) : Calling st source fun run => st.apply run source collection
  | direct {c : Callable} (params : List Value) : source = .callable c →
      Calling st source fun run => c.enter run params st
  | boundary {xs : List Value} : xs.length ≤ maxParams →
      Calling st source fun run => Boundary.call run (some source) (xs.map some) st
  | boundaryApply (collection : Value) :
      Calling st source fun run => Boundary.apply run (some source) (some collection) st

def EntersNothing (route : Route β) : Prop := ∀ c params st, ¬ EntersWith route c params st

/-- The errors of calls that enter nothing. -/
inductive CallError.IsRefusal : CallError → Prop
  | invalidArity (n : Nat) (callee : String) : IsRefusal (.invalidArity n callee)
  | unsupportedArity (n : Nat) (callee : String) : IsRefusal (.unsupportedArity n callee)
  | unboundVar (name : String) : IsRefusal (.unboundVar name)
  | notSeqable (shown : String) : IsRefusal (.notSeqable shown)

/-- The decisions that calls of a source can lead to. -/
inductive Decided (st : Store β) (source : Value) : Resolution → Prop
  | enter {c : Callable} (params : List Value) : st.target source = .ok (.callable c) →
      Decided st source (.enter c params)
  | answer {target : Value} (xs : List Value) : st.target source = .ok target →
      target.callable? = none → Decided st source (.answer (target.answer xs))
  | refuse {e : CallError} : e.IsRefusal → Decided st source (.answer (.error e))

/-! ## One decision -/

section
variable {st : Store β} {source target : Value} {route : Route β} {r : Resolution}
  {result : Except CallError Value} {e : CallError}

theorem Value.isRefusal_of_answer {xs : List Value} (h : target.answer xs = .error e) :
    e.IsRefusal := by
  unfold answer at h
  split at h <;> cases h
  exact .invalidArity _ _

theorem Value.isRefusal_of_seq? {collection : Value} (h : collection.seq? = .error e) :
    e.IsRefusal := by
  unfold seq? at h
  split at h <;> cases h
  exact .notSeqable _

theorem Store.decided_resolution (st : Store β) (source : Value) (xs : List Value) :
    Decided st source (st.resolution source xs) := by
  cases htarget : st.target source with
  | error e =>
    cases source with
    | var v =>
      cases hroot : st.root? v with
      | none => exact resolution_unbound hroot xs ▸ .refuse (.unboundVar _)
      | some root => cases (target_bound hroot).symm.trans htarget
    | _ => cases htarget
  | ok target =>
    cases hcallable : target.callable? with
    | none => exact resolution_answer htarget hcallable xs ▸ .answer xs htarget hcallable
    | some c =>
      obtain rfl : target = .callable c := by
        cases target <;> cases hcallable
        rfl
      have hsame : st.target source = st.target (.callable c) := htarget
      rw [resolution_congr hsame, resolution_callable]
      cases c.arity.params? st.next xs with
      | none => exact .refuse (.unsupportedArity _ _)
      | some params => exact .enter params htarget

theorem Store.target_drawn (st : Store β) (n : Nat) (source : Value) :
    { st with next := n }.target source = st.target source := by
  cases source <;> rfl

/-- Each way to call comes down to one decision, which it carries out. -/
theorem Calling.decided (h : Calling st source route) :
    ∃ r n, Decided { st with next := n } source r ∧
      ∀ run, route run = r.perform run { st with next := n } := by
  have hcarries : ∀ {xs n route}, Carries source xs { st with next := n } route →
      ∃ r n, Decided { st with next := n } source r ∧
        ∀ run, route run = r.perform run { st with next := n } := fun hroute =>
    ⟨_, _, Store.decided_resolution _ source _, hroute.eq_perform⟩
  cases h with
  | called h => exact hcarries (n := st.next) (.called h)
  | direct params hsource =>
    subst hsource
    exact ⟨.enter _ params, st.next, .enter params rfl, fun run => rfl⟩
  | boundary hlen => exact hcarries (n := st.next) (.boundary hlen)
  | apply collection =>
    cases hs : collection.seq? with
    | ok s => exact hcarries (.collection hs rfl rfl)
    | error e =>
      refine ⟨_, st.next, .refuse (Value.isRefusal_of_seq? hs), fun run => ?_⟩
      simp only [Store.apply, hs]
      rfl
  | boundaryApply collection =>
    cases hs : collection.seq? with
    | ok s => exact hcarries (.boundaryCollection hs rfl rfl)
    | error e =>
      refine ⟨_, st.next, .refuse (Value.isRefusal_of_seq? hs), fun run => ?_⟩
      simp only [Boundary.apply, Boundary.require, Store.apply, hs]
      rfl

/-- A callable is entered, or the result does not depend on what bodies do. -/
theorem Decided.enters_or_answers (h : Decided st source r) :
    (∃ c params, EntersWith (fun run => r.perform run st) c params st) ∨
      ∃ result, (∀ run : Behaviour β, r.perform run st = (result, st)) ∧
        ∀ e, result = .error e → e.IsRefusal := by
  cases h with
  | @enter c params =>
    cases hbody : st.body? c params.length with
    | some body =>
      exact .inl ⟨c, params, by rw [hbody]; rfl, fun run => c.enters_enter run params st⟩
    | none =>
      refine .inr ⟨_, fun run => Callable.enter_of_no_body hbody, fun e he => ?_⟩
      cases he
      exact .invalidArity _ _
  | answer xs => exact .inr ⟨_, fun _ => rfl, fun e he => Value.isRefusal_of_answer he⟩
  | refuse hrefusal =>
    refine .inr ⟨_, fun _ => rfl, fun e he => ?_⟩
    cases he
    exact hrefusal

/-- A call that enters nothing has one result, whatever bodies do, and leaves the store as it is. -/
theorem Calling.unentered (h : Calling st source route) (hnone : EntersNothing route) :
    ∃ result n, (∀ run, route run = (result, { st with next := n })) ∧
      ∀ e, result = .error e → e.IsRefusal := by
  obtain ⟨r, n, hr, hperform⟩ := h.decided
  obtain ⟨c, params, henters⟩ | ⟨result, hresult, hrefusal⟩ := hr.enters_or_answers
  · have hroute : route = fun run => r.perform run { st with next := n } := funext hperform
    exact absurd henters (hroute ▸ hnone c params _)
  · exact ⟨result, n, fun run => (hperform run).trans (hresult run), hrefusal⟩

/-- Only a callable is ever entered. -/
theorem Calling.entersNothing (h : Calling st source route)
    (htarget : st.target source = .ok target) (hcallable : target.callable? = none) :
    EntersNothing route := by
  obtain ⟨r, n, hr, hperform⟩ := h.decided
  cases hr with
  | enter params hcallee =>
    rw [Store.target_drawn, htarget] at hcallee
    cases hcallee
    cases hcallable
  | answer => exact fun c params before => not_entersWith_of_constant hperform params
  | refuse => exact fun c params before => not_entersWith_of_constant hperform params

end

/-! ## Calls in a session -/

/-- What the ways to hand over a list of arguments come to. -/
inductive Path.Takes (st : Store β) (source : Value) (xs : List Value) : Path → Route β → Prop
  | fixed : xs.length ≤ maxParams → Takes st source xs .fixed fun run => st.callFixed run source xs
  | rest : maxParams ≤ xs.length → Takes st source xs .rest fun run =>
      st.callRest run source (xs.take maxParams) (xs.drop maxParams)
  | slice : Takes st source xs .slice fun run => st.call run source xs
  | list : Takes st source xs .list fun run =>
      (st.claim 1).apply run source (.list st.next xs)
  | vector : Takes st source xs .vector fun run =>
      (st.claim 1).apply run source (.vector st.next xs)
  | stream : Takes st source xs .stream fun run => st.callStream run source xs
  | direct {c : Callable} : source = .callable c → xs.length ≤ maxParams →
      Takes st source xs .direct fun run => c.enter run xs st

theorem Path.Takes.calling {st : Store β} {source : Value} {xs : List Value} {path : Path}
    {route : Route β} (h : path.Takes st source xs route) :
    ∃ n, Calling { st with next := n } source route := by
  cases h with
  | fixed hlen => exact ⟨st.next, .called fun run => .fixed hlen⟩
  | rest hlen => exact ⟨st.next, .called fun run => .rest hlen⟩
  | slice => exact ⟨st.next, .called fun run => .slice⟩
  | list => exact ⟨st.next + 1, .apply _⟩
  | vector => exact ⟨st.next + 1, .apply _⟩
  | stream => exact ⟨st.next, .called fun run => .stream⟩
  | direct hsource => exact ⟨st.next, .direct xs hsource⟩

namespace Session

/-- The command calls `source` on this route: as a host does, or across the boundary for the
environment with the given name. All pointers are there. -/
inductive Makes (s : Session) (source : Value) :
    Command → Option String → Route Body → Prop
  | call {s₁ s₂ : Session} {path : Path} {f : Literal} {args : List Literal} {xs : List Value}
      {route : Route Body} : s.build f = some (source, s₁) → s₁.buildAll args = some (xs, s₂) →
      path.Takes s₂.store source xs route → Makes s source (.call path f args) none route
  | apply {s₁ s₂ : Session} {f collection : Literal} {coll : Value} :
      s.build f = some (source, s₁) → s₁.build collection = some (coll, s₂) →
      Makes s source (.apply f collection) none fun run => s₂.store.apply run source coll
  | boundary {s₁ s₂ : Session} {env : String} {e : Environment} {f : Pointer}
      {args : List Pointer} {xs : List Value} : s.environment? env = some e →
      s.buildPointer f = some (some source, s₁) →
      s₁.buildPointers args = some (xs.map some, s₂) → xs.length ≤ maxParams →
      Makes s source (.boundary (.call (some env) f args)) (some env) fun run =>
        Boundary.call run (some source) (xs.map some) s₂.store
  | boundaryApply {s₁ s₂ : Session} {env : String} {e : Environment} {f collection : Pointer}
      {coll : Value} : s.environment? env = some e →
      s.buildPointer f = some (some source, s₁) →
      s₁.buildPointer collection = some (some coll, s₂) →
      Makes s source (.boundary (.apply (some env) f collection)) (some env) fun run =>
        Boundary.apply run (some source) (some coll) s₂.store

/-- What the caller is told: a host is given the error, an embedder a null pointer. -/
def told (env : Option String) : Except CallError Value → Answer
  | .ok v => .object v
  | .error e => if env.isSome then .null else .error e

variable {s s' : Session} {source : Value} {command : Command} {env : Option String}
  {route : Route Body} {result : Except CallError Value} {n : Nat}

theorem callBy_takes {path : Path} {xs : List Value} (h : path.Takes s.store source xs route) :
    s.callBy path source xs = some (s.finishCall (route Body.run)) := by
  cases h with
  | fixed hlen => simp only [callBy, if_neg (not_lt.mpr hlen)]
  | rest hlen => simp only [callBy, if_neg (not_lt.mpr hlen)]
  | direct hsource hlen =>
    subst hsource
    simp only [callBy, Value.callable?, if_neg (not_lt.mpr hlen)]
  | _ => rfl

theorem Makes.calling (h : s.Makes source command env route) :
    ∃ n, Calling { s.store with next := n } source route := by
  cases h with
  | call hf hargs hpath =>
    obtain ⟨n, rfl⟩ := build_drawn hf
    obtain ⟨m, rfl⟩ := buildAll_drawn hargs
    exact hpath.calling
  | apply hf hcollection =>
    obtain ⟨n, rfl⟩ := build_drawn hf
    obtain ⟨m, rfl⟩ := build_drawn hcollection
    exact ⟨m, .apply _⟩
  | boundary _ hf hargs hlen =>
    obtain ⟨n, rfl⟩ := buildPointer_drawn hf
    obtain ⟨m, rfl⟩ := buildPointers_drawn hargs
    exact ⟨m, .boundary hlen⟩
  | boundaryApply _ hf hcollection =>
    obtain ⟨n, rfl⟩ := buildPointer_drawn hf
    obtain ⟨m, rfl⟩ := buildPointer_drawn hcollection
    exact ⟨m, .boundaryApply _⟩

theorem finishCall_drawn {out : Outcome Body} (h : out = (result, { s.store with next := n })) :
    s.finishCall out = (told none result, s.drawn n) := by
  subst h
  cases result <;> rfl

theorem unchanged_drawn (s : Session) (n : Nat) (result : Except CallError Value) :
    s.Unchanged (s.drawn n) (failure none result) := by
  cases result <;> exact (Unchanged.refl s).drawn n

theorem told_some (env : String) (result : Except CallError Value) :
    told (some env) result = .ofPointer result.toOption := by
  cases result <;> rfl

/-- A command whose call has one result and leaves the store as it is. -/
theorem Makes.execute_unchanged (h : s.Makes source command env route)
    (hroute : ∀ run, route run = (result, { s.store with next := n })) :
    ∃ s', s.execute command = some (told env result, s') ∧
      s.Unchanged s' (failure env result) := by
  have hrun := hroute Body.run
  cases h with
  | @call s₁ s₂ path f args xs route hf hargs hpath =>
    have hexecute : s.execute (.call path f args) = s₂.callBy path source xs := by
      simp [execute, hf, hargs]
    obtain ⟨m, rfl⟩ := build_drawn hf
    obtain ⟨k, rfl⟩ := buildAll_drawn hargs
    refine ⟨s.drawn n, ?_, s.unchanged_drawn n result⟩
    rw [hexecute, callBy_takes hpath]
    exact congrArg some (finishCall_drawn (n := n) hrun)
  | @apply s₁ s₂ f collection coll hf hcollection =>
    have hexecute : s.execute (.apply f collection) =
        some (s₂.finishCall (s₂.store.apply Body.run source coll)) := by
      simp [execute, hf, hcollection]
    obtain ⟨m, rfl⟩ := build_drawn hf
    obtain ⟨k, rfl⟩ := build_drawn hcollection
    refine ⟨s.drawn n, ?_, s.unchanged_drawn n result⟩
    rw [hexecute]
    exact congrArg some (finishCall_drawn (n := n) hrun)
  | @boundary s₁ s₂ env e f args xs he hf hargs hlen =>
    have hexecute : s.execute (.boundary (.call (some env) f args)) =
        s₂.atBoundary (some env)
          fun _ _ => Boundary.call Body.run (some source) (xs.map some) := by
      simp [execute, serve, hf, hargs]
    obtain ⟨m, rfl⟩ := buildPointer_drawn hf
    obtain ⟨k, rfl⟩ := buildPointers_drawn hargs
    obtain ⟨s', hs', hun⟩ := atBoundary_unchanged (s := s.drawn k)
      (fun _ _ => Boundary.call Body.run (some source) (xs.map some)) he hrun
    exact ⟨s', told_some env result ▸ hexecute.trans hs', hun.of_drawn⟩
  | @boundaryApply s₁ s₂ env e f collection coll he hf hcollection =>
    have hexecute : s.execute (.boundary (.apply (some env) f collection)) =
        s₂.atBoundary (some env)
          fun _ _ => Boundary.apply Body.run (some source) (some coll) := by
      simp [execute, serve, hf, hcollection]
    obtain ⟨m, rfl⟩ := buildPointer_drawn hf
    obtain ⟨k, rfl⟩ := buildPointer_drawn hcollection
    obtain ⟨s', hs', hun⟩ := atBoundary_unchanged (s := s.drawn k)
      (fun _ _ => Boundary.apply Body.run (some source) (some coll)) he hrun
    exact ⟨s', told_some env result ▸ hexecute.trans hs', hun.of_drawn⟩

/-! ## Whole sessions -/

theorem Balanced.unentered {given : List (Nat × Context)} (h : s.Balanced given)
    (hmakes : s.Makes source command env route) (hnone : EntersNothing route)
    (hresult : (route Body.run).1 = result) {keep : Option String}
    (hkeep : (∃ e, result = .error e) ∨ s.IsFree keep) :
    ∃ s', s.step command keep = some (told env result, s') ∧
      s.Unchanged s' (failure env result) := by
  obtain ⟨m, hcalling⟩ := hmakes.calling
  obtain ⟨constant, n, hroute, -⟩ := hcalling.unentered hnone
  obtain rfl : constant = result := by rw [← hresult, hroute]
  obtain ⟨s', hexecute, hun⟩ := hmakes.execute_unchanged (n := n) hroute
  refine h.step_unchanged hexecute hun (hkeep.imp_left ?_)
  rintro ⟨e, rfl⟩
  cases env <;> rfl

end Session

/-- A call that enters nothing and fails has one of four errors, whatever bodies would do, and
leaves the store as it is but for identities. A map, a set or a keyword is called without
entering anything, and if it gives a value, then the store is as before as well. In a session,
after any commands, a call that enters nothing and fails leaves all as it is, unless it is a call
across the boundary: then the error is left in the environment that the call was for. A call of a
map, a set or a keyword that gives a value leaves all as it is. -/
theorem unentered_calls_change_nothing :
    (∀ (β : Type) (st : Store β) (source : Value) (route : Route β), Calling st source route →
      (EntersNothing route → ∀ run e, (route run).1 = .error e →
        e.IsRefusal ∧ ∃ n, (route run).2 = { st with next := n }) ∧
      ∀ target, st.target source = .ok target → (Lookup.of? target).isSome →
        EntersNothing route ∧ ∀ run v, (route run).1 = .ok v →
          ∃ n, (route run).2 = { st with next := n }) ∧
    ∀ commands : List (Command × Option String),
      let s := Session.start.run commands
      ∀ source command env route, s.Makes source command env route → ∀ keep,
        (EntersNothing route → ∀ e, (route Body.run).1 = .error e →
          ∃ s', s.step command keep = some (Session.told env (.error e), s') ∧
            s.Unchanged s' (env.map fun name => (name, e))) ∧
        ∀ target v, s.store.target source = .ok target → (Lookup.of? target).isSome →
          (route Body.run).1 = .ok v → s.IsFree keep →
          ∃ s', s.step command keep = some (.object v, s') ∧ s.Unchanged s' none := by
  have hlookup : ∀ target, (Lookup.of? target).isSome → target.callable? = none := by
    intro target htarget
    cases target <;> first | rfl | cases htarget
  refine ⟨fun β st source route hcalling => ⟨fun hnone run e he => ?_, fun target htarget h => ?_⟩,
    fun commands => ?_⟩
  · obtain ⟨result, n, hroute, hrefusal⟩ := hcalling.unentered hnone
    rw [hroute] at he ⊢
    exact ⟨hrefusal e he, n, rfl⟩
  · have hnone := hcalling.entersNothing htarget (hlookup target h)
    obtain ⟨result, n, hroute, -⟩ := hcalling.unentered hnone
    exact ⟨hnone, fun run v _ => ⟨n, by rw [hroute]⟩⟩
  · intro s source command env route hmakes keep
    have hbalanced := Session.Balanced.start.run commands
    refine ⟨fun hnone e he => ?_, fun target v htarget h hv hfree => ?_⟩
    · exact hbalanced.unentered hmakes hnone he (.inl ⟨e, rfl⟩)
    · obtain ⟨n, hcalling⟩ := hmakes.calling
      have hnone := hcalling.entersNothing ((s.store.target_drawn n source).trans htarget)
        (hlookup target h)
      exact hbalanced.unentered hmakes hnone hv (.inr hfree)

/-- A var without a root is called across the boundary, and then a map that holds it. -/
theorem unentered_calls_change_nothing_unbound :
    let s := Session.start.run [(.intern "rt" none "f", some "f")]
    let unbound : Request := .call (some "rt") (some (.handle "f")) [some (.integer 1)]
    let lookup : Command := .call .list (.map [(.keyword "k", .handle "f")]) [.keyword "k"]
    (∃ s', s.step (.boundary unbound) none = some (.null, s') ∧
      s.Unchanged s' (some ("rt", .unboundVar "user/f"))) ∧
    ∃ s', s.step lookup (some "v") = some (.object (.var ⟨1, "user", "f"⟩), s') ∧
      s.Unchanged s' none := by
  intro s unbound lookup
  have hcalls := unentered_calls_change_nothing.2 [(.intern "rt" none "f", some "f")]
  constructor
  · have hmakes : s.Makes (.var ⟨1, "user", "f"⟩) (.boundary unbound) (some "rt") _ :=
      @Session.Makes.boundary s _ _ _ "rt" _ _ _ [.integer 1] rfl rfl rfl (by decide)
    refine (hcalls _ _ _ _ hmakes none).1 ?_ _ rfl
    exact fun c params before => not_entersWith_of_constant (fun run => rfl) params
  · have hmakes : s.Makes _ lookup none _ := .call rfl rfl .list
    refine (hcalls _ _ _ _ hmakes (some "v")).2 _ _ rfl rfl rfl ?_
    rintro name ⟨⟩
    rfl

end ArityDispatch

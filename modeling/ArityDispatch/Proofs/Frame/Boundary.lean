import ArityDispatch.Proofs.Frame.Sessions
import ArityDispatch.Proofs.Slots.Offers
import ArityDispatch.Proofs.Texts

/-!
# Bad input at the boundary

An embedder may pass null pointers and byte strings that are no text. Without an environment an
operation does nothing. A call with a null pointer runs nothing, and the error that it leaves
names the first pointer that is null, in the order in which they are passed. A name is interned
unless it is null or no text, or its namespace is there and no text; the name is judged first.
And where an operation only tells that it has failed, it has done nothing.
-/

namespace ArityDispatch

namespace Boundary

variable {β : Type}

/-- The name of the first pointer that is null. -/
def firstNull? (pointers : List (String × Option Value)) : Option String :=
  (pointers.find? fun p => p.2.isNone).map Prod.fst

/-- The pointers that are passed for a call, with their names. -/
def callPointers (f : Option Value) (args : List (Option Value)) : List (String × Option Value) :=
  ("callee", f) :: args.mapIdx fun i p => ("a" ++ toString (1 + i), p)

def applyPointers (f collection : Option Value) : List (String × Option Value) :=
  [("callee", f), ("collection", collection)]

/-- Why a name cannot be interned. -/
inductive InternFault (ns name : Option (List UInt8)) : CallError → Prop
  | noName : name = none → InternFault ns name (.nullPointer "name")
  | badName {bytes : List UInt8} : name = some bytes → (¬ ∃ text, Text.Spells bytes text) →
      InternFault ns name .invalidUtf8
  | badNamespace {bytes space : List UInt8} : name = some bytes →
      (∃ text, Text.Spells bytes text) → ns = some space → (¬ ∃ text, Text.Spells space text) →
      InternFault ns name .invalidUtf8

/-- The namespace that is meant: the one that is passed, or the default one if none is. -/
def MeansNamespace (e : Environment) (ns : Option (List UInt8)) (space : String) : Prop :=
  match ns with
  | none => space = e.settings.ns
  | some bytes => Text.Spells bytes space

/-! ## Calls -/

variable {run : Behaviour β} {e : Environment} {st : Store β} {parameter : String}

theorem exists_firstNull {pointers : List (String × Option Value)}
    (h : ∃ p ∈ pointers, p.2 = none) : ∃ parameter, firstNull? pointers = some parameter := by
  have hfound : (pointers.find? fun p => p.2.isNone).isSome := by
    simpa [List.find?_isSome] using h
  obtain ⟨p, hp⟩ := Option.isSome_iff_exists.mp hfound
  exact ⟨p.1, by rw [firstNull?, hp, Option.map_some]⟩

theorem requireArgs_firstNull {args : List (Option Value)} {i : Nat}
    (h : firstNull? (args.mapIdx fun k p => ("a" ++ toString (i + k), p)) = some parameter) :
    requireArgs i args = .error (.nullPointer parameter) := by
  induction args generalizing i with
  | nil => cases h
  | cons p args ih =>
    rw [List.mapIdx_cons] at h
    cases p with
    | none =>
      obtain rfl := Option.some.inj h
      rfl
    | some v =>
      have hlater : firstNull? (args.mapIdx fun k p => ("a" ++ toString (i + (k + 1)), p)) =
          some parameter := h
      have hrest : requireArgs (i + 1) args = .error (.nullPointer parameter) := by
        refine ih ?_
        simpa only [Nat.add_assoc, Nat.add_comm 1] using hlater
      simp only [requireArgs, hrest]
      rfl

theorem call_firstNull {f : Option Value} {args : List (Option Value)}
    (h : firstNull? (callPointers f args) = some parameter) :
    call run f args st = (.error (.nullPointer parameter), st) := by
  cases f with
  | none =>
    obtain rfl := Option.some.inj h
    rfl
  | some f =>
    have hargs : requireArgs 1 args = .error (.nullPointer parameter) := requireArgs_firstNull h
    simp only [call, hargs]
    rfl

theorem apply_firstNull {f collection : Option Value}
    (h : firstNull? (applyPointers f collection) = some parameter) :
    apply run f collection st = (.error (.nullPointer parameter), st) := by
  cases f with
  | none =>
    obtain rfl := Option.some.inj h
    rfl
  | some f =>
    cases collection with
    | none =>
      obtain rfl := Option.some.inj h
      rfl
    | some collection => cases h

/-! ## Names -/

variable {ns name : Option (List UInt8)} {err : CallError}

theorem internVar_fault (h : InternFault ns name err) (env : String) :
    internVar ns name env e st = (.error err, st) := by
  cases h with
  | noName hname =>
    subst hname
    rfl
  | badName hname hbad =>
    subst hname
    simp only [internVar, requireText_bad hbad]
  | badNamespace hname hgood hns hbad =>
    subst hname hns
    obtain ⟨text, htext⟩ := hgood
    simp only [internVar, requireText_spelled htext]
    simp [requireText_bad hbad]

/-- Without a fault the name is interned. -/
theorem internVar_no_fault (h : ∀ err, ¬ InternFault ns name err) (env : String)
    (e : Environment) (st : Store β) : ∃ bytes text space, name = some bytes ∧
      Text.Spells bytes text ∧ MeansNamespace e ns space ∧
      internVar ns name env e st = (.ok (.var (e.intern st space text).1),
        (e.intern st space text).2.2.setEnvironment env (e.intern st space text).2.1) := by
  cases name with
  | none => exact absurd (.noName rfl) (h _)
  | some bytes =>
    have hname : ∃ text, Text.Spells bytes text := by
      by_contra hbad
      exact h _ (.badName rfl hbad)
    obtain ⟨text, htext⟩ := hname
    cases ns with
    | none =>
      refine ⟨bytes, text, e.settings.ns, rfl, htext, rfl, ?_⟩
      simp only [internVar, requireText_spelled htext]
      rfl
    | some space =>
      have hspace : ∃ name, Text.Spells space name := by
        by_contra hbad
        exact h _ (.badNamespace rfl ⟨text, htext⟩ rfl hbad)
      obtain ⟨name, hname⟩ := hspace
      refine ⟨bytes, text, name, rfl, htext, hname, ?_⟩
      simp only [internVar, requireText_spelled htext]
      simp [requireText_spelled hname, Environment.internIn]

end Boundary

/-- The requests that tell of a failure by an answer alone, with this answer. -/
inductive Request.Refuses : Request → Answer → Prop
  | newEnvironment (env : String) (document : Option (List UInt8)) :
      Refuses (.newEnvironment env document) .null
  | newString (bytes : Option (List UInt8)) : Refuses (.newString bytes) .null
  | newClosure (bits : UInt8) (context : Context) : Refuses (.newClosure bits context) .null
  | install (f : Pointer) (slot : Nat) (body : Option Body) :
      Refuses (.install f slot body) (.flag false)
  | bindRoot (v value : Pointer) : Refuses (.bindRoot v value) (.flag false)

namespace Session

open Boundary

/-- The request is a call that passes these pointers, for the environment with the given name or
for none. -/
inductive Passes (s : Session) : Request → Option String → List (String × Option Value) → Prop
  | call {s₁ s₂ : Session} {f : Pointer} {p : Option Value} {args : List Pointer}
      {ps : List (Option Value)} (env : Option String) : s.buildPointer f = some (p, s₁) →
      s₁.buildPointers args = some (ps, s₂) → Passes s (.call env f args) env (callPointers p ps)
  | apply {s₁ s₂ : Session} {f collection : Pointer} {p q : Option Value} (env : Option String) :
      s.buildPointer f = some (p, s₁) → s₁.buildPointer collection = some (q, s₂) →
      Passes s (.apply env f collection) env (applyPointers p q)

variable {s s' : Session} {given : List (Nat × Context)} {request : Request} {env name : String}
  {e : Environment} {answer : Answer} {pointers : List (String × Option Value)}

/-- Once its pointers are there, a call is an operation at the boundary that blames the first null
pointer. -/
theorem Passes.serve {env : Option String} (h : s.Passes request env pointers) :
    ∃ n operation, s.serve request = (s.drawn n).atBoundary env operation ∧
      ∀ env e st parameter, firstNull? pointers = some parameter →
        operation env e st = (.error (.nullPointer parameter), st) := by
  cases h with
  | @call s₁ s₂ f p args ps _ hf hargs =>
    have hserve : s.serve (.call env f args) =
        s₂.atBoundary env fun _ _ => Boundary.call Body.run p ps := by
      simp [Session.serve, hf, hargs]
    obtain ⟨m, rfl⟩ := buildPointer_drawn hf
    obtain ⟨n, rfl⟩ := buildPointers_drawn hargs
    exact ⟨n, _, hserve, fun env e st parameter => call_firstNull⟩
  | @apply s₁ s₂ f collection p q _ hf hcollection =>
    have hserve : s.serve (.apply env f collection) =
        s₂.atBoundary env fun _ _ => Boundary.apply Body.run p q := by
      simp [Session.serve, hf, hcollection]
    obtain ⟨m, rfl⟩ := buildPointer_drawn hf
    obtain ⟨n, rfl⟩ := buildPointer_drawn hcollection
    exact ⟨n, _, hserve, fun env e st parameter => apply_firstNull⟩

/-- A call without an environment does nothing, whatever the pointers are. -/
theorem Passes.serve_none (h : s.Passes request none pointers) :
    ∃ s', s.serve request = some (.null, s') ∧ s.Unchanged s' none := by
  obtain ⟨n, operation, hserve, -⟩ := h.serve
  exact ⟨s.drawn n, hserve, (Unchanged.refl s).drawn n⟩

/-- A call with a null pointer leaves the error that names the first. -/
theorem Passes.serve_firstNull {parameter : String} (h : s.Passes request (some env) pointers)
    (he : s.environment? env = some e) (hnull : firstNull? pointers = some parameter) :
    ∃ s', s.serve request = some (.null, s') ∧
      s.Unchanged s' (some (env, .nullPointer parameter)) := by
  obtain ⟨n, operation, hserve, hblame⟩ := h.serve
  obtain ⟨s', hs', hun⟩ := atBoundary_unchanged (s := s.drawn n) operation he
    (hblame env e _ _ hnull)
  exact ⟨s', hserve.trans hs', hun.of_drawn⟩

theorem serve_internFault {ns name : Option (List UInt8)} {err : CallError}
    (he : s.environment? env = some e) (h : InternFault ns name err) :
    ∃ s', s.serve (.intern (some env) ns name) = some (.null, s') ∧
      s.Unchanged s' (some (env, err)) :=
  atBoundary_unchanged (n := s.store.next) (Boundary.internVar ns name) he (internVar_fault h env)

theorem newClosure_refused {bits : UInt8} {context : Context} {st : Store Body}
    (h : (newClosure bits context st).1 = none) : (newClosure bits context st).2 = st := by
  unfold newClosure at h ⊢
  split_ifs at h ⊢
  rfl

theorem bindRoot_refused {v value : Option Value} {st : Store Body}
    (h : (bindRoot v value st).1 = false) : (bindRoot v value st).2 = st := by
  unfold bindRoot at h ⊢
  split at h
  · cases h
  · rfl

theorem null_of_ofPointer {p : Option Value} (h : Answer.ofPointer p = .null) : p = none := by
  cases p with
  | none => rfl
  | some v => cases h

theorem unchanged_withStore {n : Nat} {st : Store Body} (h : st = (s.drawn n).store) :
    s.Unchanged ((s.drawn n).withStore st) none := by
  subst h
  exact (Unchanged.refl s).drawn n

theorem serve_refused (h : request.Refuses answer)
    (hserve : s.serve request = some (answer, s')) : s.Unchanged s' none := by
  cases h with
  | newEnvironment env document =>
    simp only [serve] at hserve
    split at hserve
    · cases hserve
    · cases hserve
      exact .refl s
  | newString bytes =>
    obtain ⟨-, rfl⟩ := Prod.mk.inj (Option.some.inj hserve)
    exact .refl s
  | newClosure bits context =>
    obtain ⟨hanswer, rfl⟩ := Prod.mk.inj (Option.some.inj hserve)
    exact unchanged_withStore (n := s.store.next) (newClosure_refused (null_of_ofPointer hanswer))
  | install f slot body =>
    obtain ⟨⟨p, s₁⟩, hp, hserve⟩ := Option.bind_eq_some_iff.mp hserve
    obtain ⟨hanswer, rfl⟩ := Prod.mk.inj (Option.some.inj hserve)
    obtain ⟨n, rfl⟩ := buildPointer_drawn hp
    exact unchanged_withStore (installEntry_effect.1 (Answer.flag.inj hanswer))
  | bindRoot v value =>
    obtain ⟨⟨p, s₁⟩, hp, hserve⟩ := Option.bind_eq_some_iff.mp hserve
    obtain ⟨⟨q, s₂⟩, hq, hserve⟩ := Option.bind_eq_some_iff.mp hserve
    obtain ⟨hanswer, rfl⟩ := Prod.mk.inj (Option.some.inj hserve)
    obtain ⟨m, rfl⟩ := buildPointer_drawn hp
    obtain ⟨n, rfl⟩ := buildPointer_drawn hq
    exact unchanged_withStore (s := s) (n := n) (bindRoot_refused (Answer.flag.inj hanswer))

/-- Without a fault a name is known afterwards, and no error is left. -/
theorem step_interned {ns name : Option (List UInt8)} (he : s.environment? env = some e)
    (h : ∀ err, ¬ InternFault ns name err) (keep : Option String) :
    ∃ bytes text space x s' e', name = some bytes ∧ Text.Spells bytes text ∧
      MeansNamespace e ns space ∧
      s.step (.boundary (.intern (some env) ns name)) keep = some (.object (.var x), s') ∧
      s'.environment? env = some e' ∧ e'.find? space text = some x ∧
      e'.lastError = e.lastError := by
  obtain ⟨bytes, text, space, hname, htext, hspace, hintern⟩ :=
    internVar_no_fault h env e s.store
  let made := e.intern s.store space text
  have henv : s.store.environment? env = some e := he
  have hexecute : s.execute (.boundary (.intern (some env) ns name)) =
      some (.object (.var made.1), s.withStore (made.2.2.setEnvironment env made.2.1)) := by
    simp only [execute, serve, atBoundary, Boundary.perform, henv, Option.map_some, hintern]
    rfl
  obtain ⟨s', hstep, hsame⟩ := environments_step hexecute keep
  refine ⟨bytes, text, space, made.1, s', made.2.1, hname, htext, hspace, hstep, ?_,
    e.find?_intern s.store space text, e.lastError_intern s.store space text⟩
  have hput : s'.environment? env = (made.2.2.setEnvironment env made.2.1).environment? env :=
    congrArg (fun environments => environments.get? env) hsame
  rw [hput, Store.environment?_setEnvironment, if_pos rfl]

end Session

/-- A call of any behaviour with a null pointer runs nothing and fails with the error that names
the first null pointer. In a session, after any commands, a call without an environment does
nothing; a call with a null pointer gives a null pointer and leaves that error in its
environment; and a request for a name does the same with its own error if there is a fault in the
name or in the namespace, while without a fault the name is known afterwards and no error is
left. Other requests that refuse do nothing. -/
theorem bad_input_changes_nothing :
    (∀ (β : Type) (run : Behaviour β) (st : Store β) (f : Option Value) (parameter : String),
      (∀ args, Boundary.firstNull? (Boundary.callPointers f args) = some parameter →
        Boundary.call run f args st = (.error (.nullPointer parameter), st)) ∧
      ∀ collection, Boundary.firstNull? (Boundary.applyPointers f collection) = some parameter →
        Boundary.apply run f collection st = (.error (.nullPointer parameter), st)) ∧
    ∀ (commands : List (Command × Option String)) (keep : Option String),
      let s := Session.start.run commands
      (∀ request env pointers, s.Passes request env pointers →
        (env = none →
          ∃ s', s.step (.boundary request) keep = some (.null, s') ∧ s.Unchanged s' none) ∧
        ∀ name, env = some name → (s.environment? name).isSome → (∃ p ∈ pointers, p.2 = none) →
          ∃ parameter s', Boundary.firstNull? pointers = some parameter ∧
            s.step (.boundary request) keep = some (.null, s') ∧
            s.Unchanged s' (some (name, .nullPointer parameter))) ∧
      (∀ env e ns name, s.environment? env = some e →
        (∀ err, Boundary.InternFault ns name err →
          ∃ s', s.step (.boundary (.intern (some env) ns name)) keep = some (.null, s') ∧
            s.Unchanged s' (some (env, err))) ∧
        ((∀ err, ¬ Boundary.InternFault ns name err) →
          ∃ bytes text space x s' e', name = some bytes ∧ Text.Spells bytes text ∧
            Boundary.MeansNamespace e ns space ∧
            s.step (.boundary (.intern (some env) ns name)) keep = some (.object (.var x), s') ∧
            s'.environment? env = some e' ∧ e'.find? space text = some x ∧
            e'.lastError = e.lastError)) ∧
      ∀ request answer s', Request.Refuses request answer →
        s.step (.boundary request) keep = some (answer, s') → s.Unchanged s' none := by
  refine ⟨fun β run st f parameter => ⟨fun args => Boundary.call_firstNull,
    fun collection => Boundary.apply_firstNull⟩, fun commands keep => ?_⟩
  intro s
  have h := Session.Balanced.start.run commands
  have hexecute : ∀ {request r}, s.serve request = some r →
      s.execute (.boundary request) = some r := fun hserve => hserve
  refine ⟨fun request env pointers hpasses => ⟨?_, ?_⟩, fun env e ns name he => ⟨?_, ?_⟩, ?_⟩
  · rintro rfl
    obtain ⟨s', hserve, hun⟩ := hpasses.serve_none
    exact h.step_unchanged (hexecute hserve) hun (.inl rfl)
  · rintro name rfl hlive hsome
    obtain ⟨e, he⟩ := Option.isSome_iff_exists.mp hlive
    obtain ⟨parameter, hnull⟩ := Boundary.exists_firstNull hsome
    obtain ⟨s', hserve, hun⟩ := hpasses.serve_firstNull he hnull
    obtain ⟨s'', hstep⟩ := h.step_unchanged (hexecute hserve) hun (.inl rfl)
    exact ⟨parameter, s'', hnull, hstep⟩
  · intro err hfault
    obtain ⟨s', hserve, hun⟩ := Session.serve_internFault he hfault
    exact h.step_unchanged (hexecute hserve) hun (.inl rfl)
  · exact fun hnone => Session.step_interned he hnone keep
  · intro request answer s' hrefuses hstep
    obtain ⟨⟨told, after⟩, hexecute, hend⟩ := Option.map_eq_some_iff.mp hstep
    obtain rfl : told = answer := congrArg Prod.fst hend
    have hun := Session.serve_refused hrefuses hexecute
    have hquiet : told.object? = none := by cases hrefuses <;> rfl
    obtain ⟨s'', hsame, hun'⟩ := h.step_unchanged hexecute hun (.inl hquiet)
    obtain ⟨-, rfl⟩ := Prod.mk.inj (Option.some.inj (hsame.symm.trans hstep))
    exact hun'

/-- Two null arguments, a name that is no text beside a namespace that is none either, and an
entry for a var. -/
theorem bad_input_changes_nothing_second_argument :
    let s := Session.start.run [(.intern "rt" none "f", some "f")]
    let f : Pointer := some (.handle "f")
    (∃ s', s.step (.boundary (.call (some "rt") f [some .nil, none, none])) none =
        some (.null, s') ∧ s.Unchanged s' (some ("rt", .nullPointer "a2"))) ∧
    (∃ s', s.step (.boundary (.intern (some "rt") (some [255]) (some [255]))) none =
        some (.null, s') ∧ s.Unchanged s' (some ("rt", .invalidUtf8))) ∧
    ∃ s', s.step (.boundary (.install f 0 (some .record))) none = some (.flag false, s') ∧
      s.Unchanged s' none := by
  intro s f
  have h := bad_input_changes_nothing.2 [(.intern "rt" none "f", some "f")] none
  refine ⟨?_, ?_, ?_⟩
  · have hpasses : s.Passes (.call (some "rt") f [some .nil, none, none]) (some "rt")
        (Boundary.callPointers (some (.var ⟨1, "user", "f"⟩)) [some .nil, none, none]) :=
      .call (some "rt") rfl rfl
    have hnull : ∃ p ∈ Boundary.callPointers (some (.var ⟨1, "user", "f"⟩)) [some .nil, none, none],
        p.2 = none := by simp [Boundary.callPointers]
    obtain ⟨parameter, s', hfirst, hstep, hun⟩ := (h.1 _ _ _ hpasses).2 "rt" rfl rfl hnull
    obtain rfl : parameter = "a2" := (Option.some.inj hfirst).symm
    exact ⟨s', hstep, hun⟩
  · have hbad : ¬ ∃ text, Text.Spells [255] text := by
      rintro ⟨text, htext⟩
      cases Text.ofTerminated?_eq_some_iff.mpr htext
    exact (h.2.1 "rt" _ _ _ rfl).1 _ (.badName rfl hbad)
  · have hstep : (s.step (.boundary (.install f 0 (some .record))) none).map Prod.fst =
        some (.flag false) := rfl
    obtain ⟨⟨answer, s'⟩, hstep, rfl⟩ := Option.map_eq_some_iff.mp hstep
    exact ⟨s', hstep, h.2.2 _ _ _ (.install f 0 _) hstep⟩

end ArityDispatch

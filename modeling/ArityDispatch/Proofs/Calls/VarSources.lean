import ArityDispatch.Proofs.Calls.Counterparts
import ArityDispatch.Session.Command

/-!
# Vars in callee position

A var in callee position stands for the root that it has when the call starts. The root is
looked up before anything runs, and never again in this call: bodies may bind the var as often
as they like, and call through it, but they cannot change which callable was entered or with
which parameters. A var without a root is an error. So is a var whose root is a var, since
the second var is not looked up, whatever its root is.

Two sources that stand for the same value are called alike on every path. Across the
embedding boundary they also leave the same environment, and in a session the same state as a
whole, with the names and the errors of all environments.
-/

namespace ArityDispatch

variable {β : Type}

/-- What an embedder sees of a call across the boundary, for each behaviour of the bodies. -/
abbrev Crossing (β : Type) := Behaviour β → Option Value × Store β

/-- The ways to hand `xs` over across the boundary for an environment, one by one or as a
collection. As with `Carries`, `st` is the store in which all arguments are there. -/
inductive Crosses (source : Value) (xs : List Value) (env : String) (st : Store β) :
    Crossing β → Prop
  | call : xs.length ≤ maxParams → Crosses source xs env st fun run =>
      Boundary.finish env (Boundary.call run (some source) (xs.map some) st)
  | apply {before : Store β} {coll : Value} {s : Seq} : coll.seq? = .ok s →
      s.drain before.next = (xs, st.next) → st = { before with next := st.next } →
      Crosses source xs env st fun run =>
        Boundary.finish env (Boundary.apply run (some source) (some coll) before)

/-- Every call fails with `e`, and nothing runs. -/
structure Refused (source : Value) (xs : List Value) (st : Store β) (e : CallError) : Prop where
  route : ∀ route, Carries source xs st route → ∀ run, route run = (.error e, st)
  entersNone : ∀ route, Carries source xs st route → ∀ c params, ¬ EntersWith route c params st
  crossing : ∀ env crossing, Crosses source xs env st crossing →
    ∀ run, crossing run = Boundary.handOver env (.error e, st)

/-- Calls of `source` enter what calls of `target` enter, with the same parameters, and nothing
that comes of them differs. -/
structure CalledAs (source target : Value) (xs : List Value) (st : Store β) : Prop where
  route : ∀ route route', Carries source xs st route → Carries target xs st route' →
    ∀ run, route run = route' run
  enters : ∀ route route', Carries source xs st route → Carries target xs st route' →
    ∀ c params, EntersWith route c params st ↔ EntersWith route' c params st
  crossing : ∀ env crossing crossing', Crosses source xs env st crossing →
    Crosses target xs env st crossing' → ∀ run, crossing run = crossing' run

/-! ## Sources that stand for one value -/

section
variable {source target : Value} {xs : List Value} {st : Store β}

theorem Crosses.eq_handOver {env : String} {crossing : Crossing β}
    (h : Crosses source xs env st crossing) (run : Behaviour β) :
    crossing run = Boundary.handOver env ((st.resolution source xs).perform run st) := by
  rw [← Store.call_eq_perform]
  cases h with
  | call hlen =>
    have hcall : Boundary.call run (some source) (xs.map some) st = st.call run source xs :=
      (Boundary.call_some run source xs st).trans (Store.callFixed_eq_call run source st hlen)
    exact (Boundary.finish_eq_handOver env _).trans (congrArg (Boundary.handOver env) hcall)
  | apply hs hdrain hst =>
    exact (Boundary.finish_eq_handOver env _).trans
      (congrArg (Boundary.handOver env) (Store.apply_seq run source hs hdrain hst))

theorem refused_of_resolution {e : CallError} (h : st.resolution source xs = .answer (.error e)) :
    Refused source xs st e := by
  have hroute : ∀ route, Carries source xs st route → ∀ run, route run = (.error e, st) := by
    intro route hroute run
    rw [hroute.eq_perform, h]
    rfl
  refine ⟨hroute, fun route h c params => not_entersWith_of_error (hroute route h) params, ?_⟩
  intro env crossing hcrossing run
  rw [hcrossing.eq_handOver, h]
  rfl

theorem calledAs_of_target (h : st.target source = st.target target) :
    CalledAs source target xs st := by
  have hresolution := Store.resolution_congr h xs
  have hroute : ∀ route route', Carries source xs st route → Carries target xs st route' →
      ∀ run, route run = route' run := by
    intro route route' hsource htarget run
    rw [hsource.eq_perform, htarget.eq_perform, hresolution]
  refine ⟨hroute, fun route route' hsource htarget c params => ?_, ?_⟩
  · rw [show route = route' from funext (hroute route route' hsource htarget)]
  · intro env crossing crossing' hsource htarget run
    rw [hsource.eq_handOver, htarget.eq_handOver, hresolution]

end

namespace Store

variable {source target : Value} {st : Store β} (run : Behaviour β)

/-- Drawing identities does not change what a source stands for. -/
theorem target_next (h : st.target source = st.target target) (next : Nat) :
    { st with next }.target source = { st with next }.target target := by
  have hsame : ∀ source, { st with next }.target source = st.target source := by
    intro source
    cases source <;> rfl
  rw [hsame source, hsame target, h]

theorem callFixed_congr (h : st.target source = st.target target) (xs : List Value) :
    st.callFixed run source xs = st.callFixed run target xs := by
  simp only [callFixed, resolve, h]

theorem callRest_congr (h : st.target source = st.target target) (leading rest : List Value) :
    st.callRest run source leading rest = st.callRest run target leading rest := by
  simp only [callRest, resolveRest, resolve, h]

theorem call_congr (h : st.target source = st.target target) (xs : List Value) :
    st.call run source xs = st.call run target xs := by
  rw [call_eq_perform, call_eq_perform, resolution_congr h]

theorem apply_congr (h : st.target source = st.target target) (collection : Value) :
    st.apply run source collection = st.apply run target collection := by
  unfold apply
  cases collection.seq? with
  | error e => rfl
  | ok s =>
    simp only [callStream_eq_call]
    exact call_congr run (target_next h _) _

end Store

namespace Boundary

variable {v w : Value} {st : Store β} (run : Behaviour β)

theorem call_congr (h : st.target v = st.target w) (args : List (Option Value)) :
    call run (some v) args st = call run (some w) args st := by
  simp only [call, require]
  cases requireArgs 1 args with
  | error e => rfl
  | ok args => simp only [Store.callFixed_congr run h]

theorem apply_congr (h : st.target v = st.target w) (collection : Option Value) :
    apply run (some v) collection st = apply run (some w) collection st := by
  simp only [apply, require]
  cases collection with
  | none => rfl
  | some collection => simp only [Store.apply_congr run h]

end Boundary

/-! ## Calls in a session -/

/-- Two commands that make one call, the first of `f` and the second of `g`. -/
inductive Session.SameCall (f g : Literal) : Command → Command → Prop
  | call {path : Path} (args : List Literal) : path ≠ .direct →
      SameCall f g (.call path f args) (.call path g args)
  | apply (collection : Literal) : SameCall f g (.apply f collection) (.apply g collection)
  | boundaryCall (env : Option String) (args : List Pointer) :
      SameCall f g (.boundary (.call env (some f) args)) (.boundary (.call env (some g) args))
  | boundaryApply (env : Option String) (collection : Pointer) :
      SameCall f g (.boundary (.apply env (some f) collection))
        (.boundary (.apply env (some g) collection))

namespace Session

variable {s : Session} {v w : Value}

theorem callBy_congr (h : s.store.target v = s.store.target w) {path : Path}
    (hpath : path ≠ .direct) (args : List Value) : s.callBy path v args = s.callBy path w args := by
  have hclaim : (s.store.claim 1).target v = (s.store.claim 1).target w := Store.target_next h _
  cases path with
  | fixed => simp only [callBy, Store.callFixed_congr Body.run h]
  | rest => simp only [callBy, Store.callRest_congr Body.run h]
  | slice => simp only [callBy, Store.call_congr Body.run h]
  | list => simp only [callBy, Store.apply_congr Body.run hclaim]
  | vector => simp only [callBy, Store.apply_congr Body.run hclaim]
  | stream => simp only [callBy, Store.callStream_eq_call, Store.call_congr Body.run h]
  | direct => exact absurd rfl hpath

theorem atBoundary_congr {operation operation' : Store Body → Outcome Body}
    (h : operation s.store = operation' s.store) (env : Option String) :
    (s.atBoundary env fun _ _ => operation) = s.atBoundary env fun _ _ => operation' := by
  cases env with
  | none => rfl
  | some name => simp only [atBoundary, Boundary.perform, h]

/-- Commands that make one call of two sources do the same, if the sources stand for one value
when the call starts. -/
theorem execute_sameCall {s' : Session} {f g : Literal} {a b : Command}
    (hf : s.build f = some (v, s')) (hg : s.build g = some (w, s'))
    (htarget : s'.store.target v = s'.store.target w) (h : SameCall f g a b) :
    s.execute a = s.execute b := by
  have hdrawn : ∀ next, (s'.drawn next).store.target v = (s'.drawn next).store.target w :=
    Store.target_next htarget
  cases h with
  | call args hpath =>
    simp only [execute, hf, hg, Option.bind_eq_bind, Option.bind_some]
    refine Option.bind_congr fun ⟨xs, s''⟩ hargs => ?_
    obtain ⟨next, rfl⟩ := buildAll_drawn hargs
    exact callBy_congr (hdrawn next) hpath xs
  | apply collection =>
    simp only [execute, hf, hg, Option.bind_eq_bind, Option.bind_some]
    refine Option.bind_congr fun ⟨coll, s''⟩ hcoll => ?_
    obtain ⟨next, rfl⟩ := build_drawn hcoll
    simp only [Store.apply_congr Body.run (hdrawn next)]
  | boundaryCall env args =>
    simp only [execute, serve, buildPointer, hf, hg, Option.bind_eq_bind, Option.map_some,
      Option.bind_some]
    refine Option.bind_congr fun ⟨xs, s''⟩ hargs => ?_
    obtain ⟨next, rfl⟩ := buildPointers_drawn hargs
    exact atBoundary_congr (Boundary.call_congr Body.run (hdrawn next) xs) env
  | boundaryApply env collection =>
    have hf : s.buildPointer (some f) = some (some v, s') := by
      simp only [buildPointer, hf, Option.map_some]
    have hg : s.buildPointer (some g) = some (some w, s') := by
      simp only [buildPointer, hg, Option.map_some]
    simp only [execute, serve, hf, hg, Option.bind_eq_bind, Option.bind_some]
    refine Option.bind_congr fun ⟨coll, s''⟩ hcoll => ?_
    obtain ⟨next, rfl⟩ := buildPointer_drawn hcoll
    exact atBoundary_congr (Boundary.apply_congr Body.run (hdrawn next) coll) env

end Session

/-! ## A var is looked up once -/

/-- Calls of a var fail and run nothing if it has no root, and if its root is a var, which may
be the var itself. Any other root is called as if it stood in place of the var: whatever the
bodies bind while they run, the same callable is entered with the same parameters, and the same
result, store and environments come of it. -/
theorem var_source_resolved_once (v : Var) (xs : List Value) (st : Store β) :
    (st.root? v = none → Refused (.var v) xs st (.unboundVar (v.ns ++ "/" ++ v.name))) ∧
    (∀ w : Var, st.root? v = some (.var w) →
      Refused (.var v) xs st (.invalidArity xs.length w.text)) ∧
    (∀ root, st.root? v = some root → (∀ w, root ≠ .var w) → CalledAs (.var v) root xs st) ∧
    ∀ (s s' : Session) (f g : Literal) (root : Value), s.build f = some (.var v, s') →
      s.build g = some (root, s') → s'.store.root? v = some root → (∀ w, root ≠ .var w) →
      ∀ a b, Session.SameCall f g a b → s.execute a = s.execute b := by
  have htarget : ∀ {γ : Type} {st : Store γ} {root : Value}, st.root? v = some root →
      (∀ w, root ≠ .var w) → st.target (.var v) = st.target root := fun h hroot =>
    (Store.target_bound h).trans (Store.target_of_not_var _ hroot).symm
  refine ⟨fun h => ?_, fun w h => ?_, fun root h hroot => ?_, ?_⟩
  · exact refused_of_resolution (Store.resolution_unbound h xs)
  · refine refused_of_resolution ?_
    rw [Store.resolution_answer (Store.target_bound h) rfl, Value.answer_of_not_lookup rfl,
      Value.text_var]
  · exact calledAs_of_target (htarget h hroot)
  · intro s s' f g root hf hg h hroot a b hsame
    exact Session.execute_sameCall hf hg (htarget h hroot) hsame

/-- The body of the root binds the var to `nil`, and still the call was one of the old root. -/
theorem var_source_resolved_once_rebound :
    let n : Callable := ⟨1, ⟨2⟩, .native "f"⟩
    let v : Var := ⟨3, "user", "f"⟩
    let st : Store Body :=
      { callees := ⟨[(1, { entries := ⟨.replicate _ (some .rebind)⟩ })]⟩
        roots := ⟨[(3, some (.callable n))]⟩
        next := 9 }
    let xs : List Value := [.var v, .nil]
    CalledAs (.var v) (.callable n) xs st ∧
      (st.call Body.run (.var v) xs).1 = .ok (.keyword "rebound") ∧
      (st.call Body.run (.var v) xs).2.root? v = some .nil := by
  intro n v st xs
  have hcalled : CalledAs (.var v) (.callable n) xs st :=
    (var_source_resolved_once v xs st).2.2.1 _ rfl (by simp)
  have hcall : st.call Body.run (.var v) xs = st.call Body.run (.callable n) xs :=
    hcalled.route _ _ (.called fun _ => .slice) (.called fun _ => .slice) Body.run
  have hrun : st.call Body.run (.callable n) xs =
      (.ok (.keyword "rebound"), (st.claim 1).bind v .nil) := by
    simp only [n, v, st, xs]
    rfl
  rw [hcall, hrun]
  exact ⟨hcalled, rfl, rfl⟩

end ArityDispatch

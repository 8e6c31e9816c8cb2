import ArityDispatch.Body
import ArityDispatch.Proofs.Calls.Paths
import ArityDispatch.Proofs.Release.Live

/-!
# Calls keep stores sound

Calls hand on what they were given: arguments, elements of them, roots of vars, and new lists
and vectors of such values. So a call with live values on a sound store gives a live result
and a store that extends the one before, as long as the bodies do so. The operations of the
boundary do no more, and leave their errors in the slots of environments. A body that runs for at
most a number of rounds does so by induction on that number. No call makes a callable, and so none
adds to what is owed.
-/

namespace ArityDispatch

section
variable {β : Type} {st st' : Store β} {run : Behaviour β} {out : Outcome β}
  {source v : Value} {args : List Value}

/-- The outcome leaves the store sound and gives a live result, if any. -/
structure Store.Safe (st : Store β) (out : Outcome β) : Prop where
  grows : st.Extends out.2 []
  live : ∀ {v}, out.1 = .ok v → out.2.Live v

/-- A body keeps every sound store sound. -/
def Behaviour.Safe (run : Behaviour β) : Prop :=
  ∀ body base {args} {st : Store β}, st.Sound → (∀ v ∈ args, st.Live v) →
    st.Safe (run body base args st)

def Resolution.Live (st : Store β) : Resolution → Prop
  | enter _ params => ∀ v ∈ params, st.Live v
  | answer result => ∀ v, result = .ok v → st.Live v

theorem eq_ok_of_toOption {ε α : Type} {result : Except ε α} {a : α}
    (h : result.toOption = some a) : result = .ok a := by
  cases result with
  | ok b => exact congrArg Except.ok (Option.some.inj h)
  | error e => cases h

theorem Callable.ok_of_report (c : Callable) {slot : Nat} {result : Except CallError Value}
    (h : c.report slot result = .ok v) : result = .ok v := by
  cases result with
  | ok w => exact h
  | error e => cases h

namespace Store

theorem Safe.same {result : Except CallError Value} (hs : st.Sound)
    (h : ∀ v, result = .ok v → st.Live v) : st.Safe (result, st) where
  grows := .refl hs
  live := h _

theorem Safe.error (hs : st.Sound) (e : CallError) : st.Safe (.error e, st) := .same hs nofun

theorem Extends.safe (h : st.Extends st' []) (hout : st'.Safe out) : st.Safe out where
  grows := h.trans hout.grows
  live := hout.live

theorem Extends.lives (h : st.Extends st' []) (hargs : ∀ v ∈ args, st.Live v) :
    ∀ v ∈ args, st'.Live v :=
  fun v hv => h.live (hargs v hv)

/-! ## Lookups -/

theorem live_findEntry {es : List (Value × Value)} {k : Value}
    (hes : ∀ e ∈ es, st.Live e.1 ∧ st.Live e.2) (h : Value.findEntry es k = some v) :
    st.Live v := by
  obtain ⟨e, he, rfl⟩ := Option.map_eq_some_iff.mp h
  exact (hes e (List.mem_of_find?_eq_some he)).2

theorem live_findItem {items : List Value} {k : Value} (hitems : ∀ w ∈ items, st.Live w)
    (h : Value.findItem items k = some v) : st.Live v :=
  hitems v (List.mem_of_find?_eq_some h)

theorem live_getD {found : Option Value} {default : Value}
    (hfound : ∀ v, found = some v → st.Live v) (hdefault : st.Live default) :
    st.Live (found.getD default) := by
  cases found with
  | none => exact hdefault
  | some v => exact hfound v rfl

theorem live_find {l : Lookup} {probe : Value} (hl : Lookup.of? source = some l)
    (hsource : st.Live source) (hprobe : st.Live probe) (h : l.find? probe = some v) :
    st.Live v := by
  cases source with
  | map id es =>
    obtain rfl := Option.some.inj hl
    exact live_findEntry (Value.forall_elements_map.mp hsource.elements) h
  | set id items =>
    obtain rfl := Option.some.inj hl
    exact live_findItem hsource.elements h
  | keyword name =>
    obtain rfl := Option.some.inj hl
    cases probe with
    | map id es => exact live_findEntry (Value.forall_elements_map.mp hprobe.elements) h
    | _ => cases h
  | _ => cases hl

theorem live_invoke {l : Lookup} (hl : Lookup.of? source = some l) (hsource : st.Live source)
    (hargs : ∀ v ∈ args, st.Live v) : Resolution.Live st (.answer (l.invoke source args)) := by
  intro v hv
  unfold Lookup.invoke at hv
  split at hv
  · obtain rfl := Except.ok.inj hv
    exact live_getD (fun v => live_find hl hsource (hargs _ (by simp))) (live_plain rfl rfl)
  · next probe default =>
    unfold Lookup.findOr? at hv
    split at hv
    · cases hv
    all_goals
      obtain rfl := Except.ok.inj hv
      exact live_getD (fun v => live_find hl hsource (hargs _ (by simp))) (hargs _ (by simp))
  · cases hv

/-! ## Resolution -/

theorem live_deref {x : Var} (hs : st.Sound) (h : st.deref x = .ok v) : st.Live v := by
  unfold deref at h
  split at h
  · next root hroot => exact Except.ok.inj h ▸ hs.live hroot
  · cases h

theorem live_target {target : Value} (hs : st.Sound) (hsource : st.Live source)
    (h : st.target source = .ok target) : st.Live target := by
  cases source with
  | var x => exact live_deref hs h
  | _ => exact Except.ok.inj h ▸ hsource

/-- The parameters of a call are its arguments, and a rest that consists of arguments. -/
theorem live_rest {leading rest : List Value} {id : Nat} (hleading : ∀ v ∈ leading, st.Live v)
    (hrest : ∀ v ∈ rest, st.Live v) : ∀ v ∈ leading ++ [.list id rest], st.Live v := by
  intro v hv
  rcases List.mem_append.mp hv with hv | hv
  · exact hleading v hv
  · exact List.mem_singleton.mp hv ▸ live_list hrest

theorem live_split (hargs : ∀ v ∈ args, st.Live v) (id k : Nat) :
    ∀ v ∈ args.take k ++ [.list id (args.drop k)], st.Live v :=
  live_rest (fun v hv => hargs v (List.mem_of_mem_take hv))
    fun v hv => hargs v (List.mem_of_mem_drop hv)

theorem live_pack (a : Arity) (id : Nat) (hargs : ∀ v ∈ args, st.Live v) :
    ∀ v ∈ a.pack id args, st.Live v := by
  unfold Arity.pack
  cases a.boundary with
  | none => exact hargs
  | some k =>
    dsimp only
    split_ifs
    · exact live_split hargs id k
    · exact live_split hargs id (maxParams - 1)
    · intro v hv
      rcases List.mem_append.mp hv with hv | hv
      · exact hargs v hv
      · exact List.mem_singleton.mp hv ▸ live_plain rfl rfl
    · exact hargs

theorem live_resolve (hs : st.Sound) (hsource : st.Live source) (hargs : ∀ v ∈ args, st.Live v) :
    (st.resolve source args).Live st := by
  unfold resolve
  split
  · exact nofun
  · next target htarget =>
    have hlive := live_target hs hsource htarget
    unfold Invocable.of
    cases target.callable? with
    | some c => exact live_pack c.arity st.next hargs
    | none =>
      cases hl : Lookup.of? target with
      | some l => exact live_invoke hl hlive hargs
      | none => exact nofun

theorem live_resolveRest {leading rest : List Value} (hs : st.Sound) (hsource : st.Live source)
    (hleading : ∀ v ∈ leading, st.Live v) (hrest : ∀ v ∈ rest, st.Live v) :
    (st.resolveRest source leading rest).Live st := by
  unfold resolveRest
  split
  · exact live_resolve hs hsource hleading
  split
  · exact nofun
  split
  · exact nofun
  split
  · exact nofun
  next k _ =>
  refine live_rest (fun v hv => hleading v (List.mem_of_mem_take hv)) fun v hv => ?_
  rcases List.mem_append.mp hv with hv | hv
  · exact hleading v (List.mem_of_mem_drop hv)
  · exact hrest v hv

/-! ## Calls -/

theorem safe_enter (hrun : run.Safe) (c : Callable) (hs : st.Sound)
    (hargs : ∀ v ∈ args, st.Live v) : st.Safe (c.enter run args st) := by
  unfold Callable.enter
  cases st.body? c args.length with
  | none => exact .error hs _
  | some body =>
    have hclaim := hs.claim 1
    have hbody := hclaim.safe
      (hrun body (st.context c).base hclaim.sound (hclaim.lives hargs))
    exact ⟨hbody.grows, fun hv => hbody.live (c.ok_of_report hv)⟩

theorem safe_perform (hrun : run.Safe) (hs : st.Sound) {r : Resolution} (hr : r.Live st) :
    st.Safe (r.perform run st) := by
  cases r with
  | enter c params => exact safe_enter hrun c hs hr
  | answer result => exact .same hs hr

theorem safe_callFixed (hrun : run.Safe) (hs : st.Sound) (hsource : st.Live source)
    (hargs : ∀ v ∈ args, st.Live v) : st.Safe (st.callFixed run source args) :=
  safe_perform hrun hs (live_resolve hs hsource hargs)

theorem safe_callRest {leading rest : List Value} (hrun : run.Safe) (hs : st.Sound)
    (hsource : st.Live source) (hleading : ∀ v ∈ leading, st.Live v)
    (hrest : ∀ v ∈ rest, st.Live v) : st.Safe (st.callRest run source leading rest) :=
  safe_perform hrun hs (live_resolveRest hs hsource hleading hrest)

theorem safe_call (hrun : run.Safe) (hs : st.Sound) (hsource : st.Live source)
    (hargs : ∀ v ∈ args, st.Live v) : st.Safe (st.call run source args) := by
  unfold Store.call
  split_ifs
  · exact safe_callFixed hrun hs hsource hargs
  · exact safe_callRest hrun hs hsource (fun v hv => hargs v (List.mem_of_mem_take hv))
      fun v hv => hargs v (List.mem_of_mem_drop hv)

theorem live_drain {s : Seq} (hsource : st.Live source) (h : source.seq? = .ok s) (id : Nat) :
    id ≤ (s.drain id).2 ∧ ∀ v ∈ (s.drain id).1, st.Live v := by
  cases source with
  | nil =>
    obtain rfl := Except.ok.inj h
    exact ⟨le_rfl, by simp [Seq.drain]⟩
  | list _ items =>
    obtain rfl := Except.ok.inj h
    exact ⟨le_rfl, hsource.elements⟩
  | vector _ items =>
    obtain rfl := Except.ok.inj h
    exact ⟨le_rfl, hsource.elements⟩
  | set _ items =>
    obtain rfl := Except.ok.inj h
    exact ⟨le_rfl, hsource.elements⟩
  | map _ es =>
    obtain rfl := Except.ok.inj h
    have hes := Value.forall_elements_map.mp hsource.elements
    refine ⟨Nat.le_add_right .., fun v hv => ?_⟩
    simp only [Seq.drain, Seq.entryVectors_eq_mapIdx, List.mem_mapIdx] at hv
    obtain ⟨i, hi, rfl⟩ := hv
    have he := hes _ (List.getElem_mem hi)
    exact live_vector (by simpa using he)
  | _ => cases h

theorem safe_apply {collection : Value} (hrun : run.Safe) (hs : st.Sound)
    (hsource : st.Live source) (hcollection : st.Live collection) :
    st.Safe (st.apply run source collection) := by
  unfold apply
  split
  · exact .error hs _
  · next s hseq =>
    obtain ⟨hnext, hargs⟩ := live_drain hcollection hseq st.next
    have hdraw := hs.draw hnext
    simp only [callStream_eq_call]
    exact hdraw.safe (safe_call hrun hdraw.sound (hdraw.live hsource) (hdraw.lives hargs))

end Store

/-! ## Across the boundary -/

/-- What is handed out across the boundary leaves the store sound and points to a live value, if
it is not null. -/
structure Store.SafePointer (st : Store β) (out : Option Value × Store β) : Prop where
  grows : st.Extends out.2 []
  live : ∀ {v}, out.1 = some v → out.2.Live v

namespace Boundary

variable {f : Option Value} {pointers : List (Option Value)}

theorem require_eq_ok {α : Type} {pointer : Option α} {parameter : String} {a : α}
    (h : require pointer parameter = .ok a) : pointer = some a := by
  cases pointer with
  | none => cases h
  | some b => exact congrArg some (Except.ok.inj h)

theorem requireArgs_live {i : Nat} {vs : List Value} (h : requireArgs i pointers = .ok vs)
    (hlive : ∀ p ∈ pointers, ∀ v, p = some v → st.Live v) : ∀ v ∈ vs, st.Live v := by
  induction pointers generalizing i vs with
  | nil =>
    cases h
    simp
  | cons p rest ih =>
    obtain ⟨hp, hrest⟩ := List.forall_mem_cons.mp hlive
    cases p with
    | none => cases h
    | some v =>
      simp only [requireArgs, require] at h
      cases htail : requireArgs (i + 1) rest with
      | error e => simp [htail, bind, Except.bind] at h
      | ok ws =>
        simp only [htail, bind, Except.bind, pure, Except.pure, Except.ok.injEq] at h
        subst h
        exact List.forall_mem_cons.mpr ⟨hp v rfl, ih htail hrest⟩

theorem safe_call (hrun : run.Safe) (hs : st.Sound) (hf : ∀ v, f = some v → st.Live v)
    (hlive : ∀ p ∈ pointers, ∀ v, p = some v → st.Live v) : st.Safe (call run f pointers st) := by
  unfold call
  split
  · next v vs hv hvs =>
    exact Store.safe_callFixed hrun hs (hf v (require_eq_ok hv)) (requireArgs_live hvs hlive)
  all_goals exact .error hs _

theorem safe_apply {collection : Option Value} (hrun : run.Safe) (hs : st.Sound)
    (hf : ∀ v, f = some v → st.Live v) (hcollection : ∀ v, collection = some v → st.Live v) :
    st.Safe (apply run f collection st) := by
  unfold apply
  split
  · next v w hv hw =>
    exact Store.safe_apply hrun hs (hf v (require_eq_ok hv)) (hcollection w (require_eq_ok hw))
  all_goals exact .error hs _

theorem safe_internVar {ns name : Option (List UInt8)} {env : String} {e : Environment}
    (hs : st.Sound) (he : st.environment? env = some e) :
    st.Safe (internVar ns name env e st) := by
  unfold internVar
  split
  · next text space _ _ =>
    obtain ⟨hgrows, hlive⟩ := hs.intern he (space.getD e.settings.ns) text
    exact ⟨hgrows, fun h => Except.ok.inj h ▸ hlive⟩
  all_goals exact .error hs _

theorem safe_deref (hs : st.Sound) : st.Safe (deref f st) := by
  unfold deref
  split
  · exact .same hs fun v => Store.live_deref hs
  all_goals exact .error hs _

theorem safe_perform {env : Option String} {operation : String → Environment → Store β → Outcome β}
    {told : Option Value × Store β} (hs : st.Sound)
    (hop : ∀ {name e}, st.environment? name = some e → st.Safe (operation name e st))
    (h : perform env operation st = some told) : st.SafePointer told := by
  cases env with
  | none =>
    obtain rfl := Option.some.inj h
    exact ⟨.refl hs, nofun⟩
  | some name =>
    obtain ⟨e, he, rfl⟩ := Option.map_eq_some_iff.mp h
    have hsafe := hop he
    generalize operation name e st = out at hsafe
    obtain ⟨result, after⟩ := out
    cases result with
    | ok v => exact ⟨hsafe.grows, fun h => hsafe.live (congrArg Except.ok (Option.some.inj h))⟩
    | error err => exact ⟨hsafe.grows.trans (hsafe.grows.sound.record name err), nofun⟩

end Boundary

end

/-! ## Bodies -/

theorem Body.safe_runFor (rounds : Nat) : Behaviour.Safe (Body.runFor rounds) := by
  -- calls are safe for bodies with fewer rounds, so only what a body does itself is left
  induction rounds with
  | zero => exact fun _ _ _ _ hs _ => .error hs _
  | succ rounds ih =>
    intro body base args st hs hargs
    have hclaim := hs.claim 1
    have hcount : st.Live (count args) := Store.live_plain rfl rfl
    have hrecord : ∀ v ∈ count args :: args, (st.claim 1).Live v :=
      hclaim.lives (List.forall_mem_cons.mpr ⟨hcount, hargs⟩)
    cases body with
    | record => exact ⟨hclaim, fun h => Except.ok.inj h ▸ Store.live_vector hrecord⟩
    | ctx =>
      have hbase : (st.claim 1).Live ((base.map Value.integer).getD .nil) := by
        cases base <;> exact Store.live_plain rfl rfl
      have hall := List.forall_mem_cons.mpr ⟨hbase, hrecord⟩
      exact ⟨hclaim, fun h => Except.ok.inj h ▸ Store.live_vector hall⟩
    | sum =>
      simp only [runFor]
      cases total? (base.getD 0) args with
      | none => exact .error hs _
      | some n => exact .same hs fun v hv => Except.ok.inj hv ▸ Store.live_plain rfl rfl
    | fail => exact .error hs _
    | call =>
      cases args with
      | nil => exact .same hs fun v hv => Except.ok.inj hv ▸ Store.live_plain rfl rfl
      | cons f rest =>
        obtain ⟨hf, hrest⟩ := List.forall_mem_cons.mp hargs
        exact Store.safe_call ih hs hf hrest
    | apply =>
      simp only [runFor]
      split
      · next f collection hf hcollection =>
        exact Store.safe_apply ih hs (hargs f (List.mem_of_mem_head? hf))
          (hargs collection (List.mem_of_getLast? hcollection))
      · exact .same hs fun v hv => Except.ok.inj hv ▸ Store.live_plain rfl rfl
    | rebind =>
      simp only [runFor]
      split
      · next x value _ hvalue =>
        have hmem : value ∈ args := List.mem_of_mem_tail (List.mem_of_getLast? hvalue)
        refine ⟨hs.bind x (hargs value hmem), fun h => ?_⟩
        exact Except.ok.inj h ▸ Store.live_plain rfl rfl
      · exact .error hs _
    | attempt =>
      cases args with
      | nil => exact .same hs fun v hv => Except.ok.inj hv ▸ Store.live_plain rfl rfl
      | cons f rest =>
        obtain ⟨hf, hrest⟩ := List.forall_mem_cons.mp hargs
        have hcall := Store.safe_call ih hs hf hrest
        refine ⟨hcall.grows, fun hv => Except.ok.inj hv ▸ Store.live_getD (fun w hw => ?_)
          (Store.live_plain rfl rfl)⟩
        exact hcall.live (eq_ok_of_toOption hw)
    | reenter env =>
      cases args with
      | nil => exact .same hs fun v hv => Except.ok.inj hv ▸ Store.live_plain rfl rfl
      | cons f rest =>
        obtain ⟨hf, hrest⟩ := List.forall_mem_cons.mp hargs
        simp only [runFor]
        split
        · next told after hperform =>
          have hcall : st.Safe (Boundary.call (runFor rounds) (some f) (rest.map some) st) :=
            Boundary.safe_call ih hs (fun v hv => Option.some.inj hv ▸ hf)
              (by simpa using hrest)
          have htold := Boundary.safe_perform hs (fun _ => hcall) hperform
          exact ⟨htold.grows, fun hv => Except.ok.inj hv ▸ Store.live_getD (fun w => htold.live)
            (Store.live_plain rfl rfl)⟩
        · exact .same hs fun v hv => Except.ok.inj hv ▸ Store.live_plain rfl rfl
    | intern env =>
      simp only [runFor]
      split
      · next name e _ he =>
        obtain ⟨hgrows, hlive⟩ := hs.intern he e.settings.ns name
        exact ⟨hgrows, fun h => Except.ok.inj h ▸ hlive⟩
      · exact .same hs fun v hv => Except.ok.inj hv ▸ Store.live_plain rfl rfl

theorem Body.safe_run : Behaviour.Safe Body.run :=
  fun body base _ _ => safe_runFor _ body base

end ArityDispatch

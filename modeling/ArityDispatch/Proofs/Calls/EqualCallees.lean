import ArityDispatch.Proofs.Calls.Lookups
import ArityDispatch.Proofs.Calls.VarSources
import ArityDispatch.Proofs.Values.InsertionOrder

/-!
# Equal callees answer equal arguments alike

Two equal maps may hold their entries in different orders, under keys that are equal and yet
differ, and the argument may be a third one that equals both. Still one finds something exactly
when the other does, and what they find is equal. Only a NaN does not equal itself: a map can
hold one as a value, and a map that equals this one is a copy of it, so both calls give that NaN.

The entries of equal maps match up to their order, and so do the elements of equal sets. Since
keys are pairwise unequal, at most one of them equals the argument, and its place in the order
does not matter.
-/

namespace ArityDispatch

open Value

variable {β : Type}

/-- Every call with `xs` has this result, whatever bodies do, and leaves the store as it is; it is
handed over as such across the boundary. -/
structure Answered (source : Value) (xs : List Value) (st : Store β)
    (result : Except CallError Value) : Prop where
  route : ∀ route : Route β, Carries source xs st route → ∀ run, route run = (result, st)
  crossing : ∀ env crossing, Crosses source xs env st crossing →
    ∀ run, crossing run = Boundary.handOver env (result, st)

theorem answered_of_target {st : Store β} {source target : Value} {xs : List Value}
    (htarget : st.target source = .ok target) (hcallable : target.callable? = none) :
    Answered source xs st (target.answer xs) where
  route route hroute run := hroute.eq_answer htarget hcallable run
  crossing env crossing hcrossing run := by
    rw [hcrossing.eq_handOver, Store.resolution_answer htarget hcallable]
    rfl

theorem Answered.unique {st : Store β} {source : Value} {xs : List Value}
    {result result' : Except CallError Value} (h : Answered source xs st result)
    (h' : Answered source xs st result') : result = result' := by
  have hcall : Carries source xs st fun run => st.call run source xs := .called fun _ => .slice
  exact congrArg Prod.fst ((h.route _ hcall echo).symm.trans (h'.route _ hcall echo))

/-! ## What equal maps and sets find -/

section
variable {vs xs ys : List Value} {es fs : List (Value × Value)} {i j : Nat} {v w x y : Value}

/-- Under unequal keys at most one place has a key that equals the probe. -/
theorem PartialEquivOn.eq_of_equal_keys {s : Value → Prop} (h : PartialEquivOn s) {α : Type}
    (key : α → Value) {es : List α} (hes : ∀ e ∈ es, s (key e)) (hu : Unequal (es.map key))
    (hx : s x) : ∀ e ∈ es, ∀ f ∈ es, (key e).eq x = true → (key f).eq x = true → e = f := by
  intro e he f hf hex hfx
  have hef := h.trans (hes e he) hx (hes f hf) hex (h.symm (hes f hf) hx hfx)
  have hfe := h.symm (hes e he) (hes f hf) hef
  exact eq_of_pairwise (List.pairwise_map.mp hu) he hf (by simp [hef]) (by simp [hfe])

theorem Stock.rel_findEntry (h : Stock vs) (hmaps : Alike vs (.map i es) (.map j fs))
    (hxy : Alike vs x y) : Option.Rel (Alike vs) (findEntry es x) (findEntry fs y) := by
  have hs := h.coherent
  have hkeys : ∀ f ∈ fs, f.1 ∈ vs := fun f hf => hs.closed hmaps.2.1 (mem_elements_map hf).1
  have hdistinct : Unequal (fs.map Prod.fst) := hs.distinct hmaps.2.1
  cases hs.alike_parts hmaps with
  | plain hmap => cases hmap
  | @map _ _ _ _ gs hperm hmatched =>
    have hrel := rel_find?_of_forall₂ (p := fun e => e.1.eq x) (q := fun g => g.1.eq y) hmatched
      fun e g heg => h.parallel.agree heg.1 hxy
    rw [find?_perm_of_unique hperm
      (hs.partialEquivOn.eq_of_equal_keys Prod.fst hkeys hdistinct hxy.2.1)] at hrel
    unfold findEntry
    generalize es.find? _ = found at hrel ⊢
    generalize fs.find? _ = found' at hrel ⊢
    cases hrel with
    | none => exact .none
    | some heg => exact .some heg.2

theorem Stock.rel_findItem (h : Stock vs) (hsets : Alike vs (.set i xs) (.set j ys))
    (hxy : Alike vs x y) : Option.Rel (Alike vs) (findItem xs x) (findItem ys y) := by
  have hs := h.coherent
  have hitems : ∀ z ∈ ys, z ∈ vs := fun z hz => hs.closed hsets.2.1 hz
  have hdistinct : Unequal (ys.map id) := (List.map_id ys).symm ▸ hs.distinct hsets.2.1
  cases hs.alike_parts hsets with
  | plain hset => cases hset
  | @set _ _ _ _ zs hperm hmatched =>
    have hrel := rel_find?_of_forall₂ (p := fun v => v.eq x) (q := fun w => w.eq y) hmatched
      fun v w hvw => h.parallel.agree hvw hxy
    have hone := hs.partialEquivOn.eq_of_equal_keys id hitems hdistinct hxy.2.1
    have hfind : zs.find? (·.eq y) = findItem ys y := find?_perm_of_unique hperm hone
    exact hfind ▸ hrel

/-- Keywords ask their argument, and an argument is a map if an equal one is. -/
theorem Stock.rel_find? (h : Stock vs) {c d : Value} {l l' : Lookup} (hc : c ∈ vs) (hd : d ∈ vs)
    (hcd : c.eq d = true) (hl : Lookup.of? c = some l) (hl' : Lookup.of? d = some l')
    (hxy : Alike vs x y) : Option.Rel (Alike vs) (l.find? x) (l'.find? y) := by
  have halike : Alike vs c d := ⟨hc, hd, .inr hcd⟩
  cases Value.sameKind_of_eqWith hcd with
  | map i j es fs =>
    obtain ⟨rfl, rfl⟩ := And.intro (Option.some.inj hl) (Option.some.inj hl')
    exact h.rel_findEntry halike hxy
  | set i j xs ys =>
    obtain ⟨rfl, rfl⟩ := And.intro (Option.some.inj hl) (Option.some.inj hl')
    exact h.rel_findItem halike hxy
  | keyword name name' =>
    obtain ⟨rfl, rfl⟩ := And.intro (Option.some.inj hl) (Option.some.inj hl')
    obtain rfl : name = name' := beq_iff_eq.mp hcd
    have hkeyword : Alike vs (.keyword name) (.keyword name) := ⟨hc, hc, .inl rfl⟩
    cases h.coherent.alike_parts hxy with
    | map hperm hmatched => exact h.rel_findEntry hxy hkeyword
    | plain hx hy =>
      have hmiss : ∀ z : Value, z.identity? = none → (Lookup.keyword name).find? z = none := by
        intro z hz
        cases z <;> first | rfl | cases hz
      rw [hmiss x hx, hmiss y hy]
      exact .none
    | _ => exact .none
  | _ => cases hl

/-! ## Equal calls -/

/-- A value that is found is alike on both sides, and so is what stands for a miss. -/
theorem alike_getD {o o' : Option Value} (h : Option.Rel (Alike vs) o o')
    (hvw : v = w ∨ v.eq w = true) : o.getD v = o'.getD w ∨ (o.getD v).eq (o'.getD w) = true := by
  cases h with
  | none => exact hvw
  | some hfound => exact hfound.2.2

theorem Stock.answer_alike (h : Stock vs) {c d : Value} (hc : c ∈ vs) (hd : d ∈ vs)
    (hlookup : (Lookup.of? c).isSome) (hcd : c.eq d = true)
    (hargs : List.Forall₂ (Alike vs) xs ys) :
    (c.answer xs = .error (.invalidArity xs.length c.text) ∧
      d.answer ys = .error (.invalidArity xs.length d.text)) ∨
    ∃ v w, c.answer xs = .ok v ∧ d.answer ys = .ok w ∧ (v = w ∨ v.eq w = true) := by
  obtain ⟨l, hl⟩ := Option.isSome_iff_exists.mp hlookup
  obtain ⟨l', hl'⟩ : ∃ l', Lookup.of? d = some l' := by
    cases Value.sameKind_of_eqWith hcd <;> first | exact ⟨_, rfl⟩ | cases hl
  have hfind := fun {x y} => h.rel_find? (x := x) (y := y) hc hd hcd hl hl'
  by_cases hlong : 2 < xs.length
  · have hlong' : 2 < ys.length := by rwa [← hargs.length_eq]
    exact .inl ⟨c.answer_of_two_lt hlong, hargs.length_eq ▸ d.answer_of_two_lt hlong'⟩
  rw [← Lookup.invoke_eq_answer hl, ← Lookup.invoke_eq_answer hl']
  match hargs with
  | .nil => exact .inl ⟨rfl, rfl⟩
  | .cons hxy .nil => exact .inr ⟨_, _, rfl, rfl, alike_getD (hfind hxy) (.inl rfl)⟩
  | .cons hxy (.cons hdefault .nil) =>
    have hfound := alike_getD (hfind hxy) hdefault.2.2
    cases Value.sameKind_of_eqWith hcd with
    | map i j es fs =>
      obtain ⟨rfl, rfl⟩ := And.intro (Option.some.inj hl) (Option.some.inj hl')
      exact .inr ⟨_, _, rfl, rfl, hfound⟩
    | keyword name name' =>
      obtain ⟨rfl, rfl⟩ := And.intro (Option.some.inj hl) (Option.some.inj hl')
      exact .inr ⟨_, _, rfl, rfl, hfound⟩
    | set i j xs ys =>
      obtain ⟨rfl, rfl⟩ := And.intro (Option.some.inj hl) (Option.some.inj hl')
      exact .inl ⟨rfl, rfl⟩
    | _ => cases hl
  | .cons _ (.cons _ (.cons _ _)) => simp at hlong

end

/-- Two equal maps, sets or keywords are called with equal arguments, each on any path and from
any source that stands for it. Either both calls have the wrong number of arguments, and each
names its own callee, or both give a value, and the two values are equal or both are NaN. -/
theorem equal_lookups_answer_alike {vs : List Value} (h : Stock vs) {c d : Value} (hc : c ∈ vs)
    (hd : d ∈ vs) (hlookup : (Lookup.of? c).isSome) (hcd : c.eq d = true) {xs ys : List Value}
    (hxs : xs ⊆ vs) (hys : ys ⊆ vs) (hargs : List.Forall₂ (fun x y => x.eq y = true) xs ys)
    {st st' : Store β} {source source' : Value} (htarget : st.target source = .ok c)
    (htarget' : st'.target source' = .ok d) :
    (Answered source xs st (.error (.invalidArity xs.length c.text)) ∧
      Answered source' ys st' (.error (.invalidArity xs.length d.text))) ∨
    ∃ v w, Answered source xs st (.ok v) ∧ Answered source' ys st' (.ok w) ∧
      (v.eq w = true ∨ v.isNaN = true ∧ w.isNaN = true) := by
  have hcallable : ∀ {e : Value}, (Lookup.of? e).isSome → e.callable? = none := by
    intro e he
    cases e <;> first | rfl | cases he
  have hlookup' : (Lookup.of? d).isSome := by
    cases Value.sameKind_of_eqWith hcd <;> exact hlookup
  have hanswered : Answered source xs st (c.answer xs) :=
    answered_of_target htarget (hcallable hlookup)
  have hanswered' : Answered source' ys st' (d.answer ys) :=
    answered_of_target htarget' (hcallable hlookup')
  have hpairs : List.Forall₂ (Alike vs) xs ys :=
    forall₂_imp_of_mem hargs fun x hx y hy hxy => ⟨hxs hx, hys hy, .inr hxy⟩
  obtain ⟨hleft, hright⟩ | ⟨v, w, hleft, hright, hvw⟩ := h.answer_alike hc hd hlookup hcd hpairs
  · rw [hleft] at hanswered
    rw [hright] at hanswered'
    exact .inl ⟨hanswered, hanswered'⟩
  · rw [hleft] at hanswered
    rw [hright] at hanswered'
    refine .inr ⟨v, w, hanswered, hanswered', ?_⟩
    rcases hvw with rfl | hvw
    · cases hnan : v.isNaN with
      | true => exact .inr ⟨rfl, rfl⟩
      | false => exact .inl (eq_self_of_not_isNaN hnan)
    · exact .inl hvw

/-- Two maps whose entries stand in different orders, one of them the root of a var, and a map
that holds a NaN, which both zeros find. -/
theorem equal_lookups_answer_alike_zeros :
    let v : Var := ⟨5, "user", "m"⟩
    let st : Store Unit := { roots := ⟨[(5, some Stock.negativeMap)]⟩, next := 9 }
    let holder := Value.mapOf 4 [(Stock.zero, Stock.nan)]
    (∃ x y, Answered Stock.zeroMap [Stock.nanList] st (.ok x) ∧
      Answered (.var v) [Stock.nanList] st (.ok y) ∧
      (x.eq y = true ∨ x.isNaN = true ∧ y.isNaN = true)) ∧
    (∃ x y, Answered holder [Stock.zero] st (.ok x) ∧
      Answered holder [Stock.negativeZero] st (.ok y) ∧
      (x.eq y = true ∨ x.isNaN = true ∧ y.isNaN = true)) ∧
    Answered Stock.zeroMap [] st (.error (.invalidArity 0 Stock.zeroMap.text)) := by
  intro v st holder
  have hstock : Stock (holder :: Stock.zeros) :=
    .map Stock.stock_zeros (by decide) (by simp [Stock.zeros])
  have hin : Stock.zeros ⊆ holder :: Stock.zeros := fun _ => List.mem_cons_of_mem _
  have hmap : Stock.zeroMap ∈ holder :: Stock.zeros := hin (by simp [Stock.zeros])
  have hroot : Stock.negativeMap ∈ holder :: Stock.zeros := hin (by simp [Stock.zeros])
  have hequal : Stock.zeroMap.eq Stock.negativeMap = true := by decide
  have htarget : st.target Stock.zeroMap = .ok Stock.zeroMap := rfl
  have htarget' : st.target (.var v) = .ok Stock.negativeMap := rfl
  have hholder : st.target holder = .ok holder := rfl
  refine ⟨?_, ?_, ?_⟩
  · have hlist : [Stock.nanList] ⊆ holder :: Stock.zeros := by simp [Stock.zeros]
    obtain ⟨hleft, -⟩ | hfound := equal_lookups_answer_alike hstock hmap hroot rfl hequal hlist
      hlist (.cons (by decide) .nil) htarget htarget'
    · cases hleft.unique (answered_of_target htarget rfl)
    · exact hfound
  · have hzero : [Stock.zero] ⊆ holder :: Stock.zeros := by simp [Stock.zeros]
    have hnegative : [Stock.negativeZero] ⊆ holder :: Stock.zeros := by simp [Stock.zeros]
    have hmem : holder ∈ holder :: Stock.zeros := List.mem_cons_self
    obtain ⟨hleft, -⟩ | hfound := equal_lookups_answer_alike hstock hmem hmem rfl (by decide)
      hzero hnegative (.cons (by decide) .nil) hholder hholder
    · cases hleft.unique (answered_of_target hholder rfl)
    · exact hfound
  · obtain ⟨hleft, -⟩ | ⟨x, y, hfound, -⟩ := equal_lookups_answer_alike hstock hmap hroot rfl
      hequal (List.nil_subset _) (List.nil_subset _) .nil htarget htarget'
    · exact hleft
    · cases hfound.unique (answered_of_target htarget rfl)

end ArityDispatch

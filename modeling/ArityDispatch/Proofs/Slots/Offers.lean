import ArityDispatch.Boundary
import Mathlib.Data.List.Nodup

/-!
# Offers of entries

An entry that is offered for a slot is installed if the slot exists and is empty, and is
refused otherwise. Either way the slots afterwards are those before, with the new entry where
there was none: one equation for both cases, and the same for a handle of a store. Offers
across the boundary add the cases in which there is no entry or no closure to install it in.
-/

namespace ArityDispatch

namespace Entries

variable {β : Type} {e f : Entries β} {k : Nat} {body : β}

/-- The slots after an offer, accepted or not. -/
def offer (e : Entries β) (k : Nat) (body : β) : Entries β :=
  match e.install k body with
  | .ok f => f
  | .error _ => e

theorem exists_install_iff : (∃ f, e.install k body = .ok f) ↔ k ≤ maxParams ∧ e.get? k = none := by
  have hslot : k < entrySlots ↔ k ≤ maxParams := Nat.lt_succ_iff
  unfold install
  by_cases hk : k < entrySlots
  · have hget : e.get? k = e.slots[k] := by
      rw [get?, Vector.getElem?_eq_getElem hk, Option.join_some]
    rw [dif_pos hk, hget]
    cases e.slots[k] with
    | none => simp [← hslot, hk]
    | some old => simp
  · simp [hk, ← hslot]

/-- An offer fills its slot if that is still empty, and changes no other. -/
theorem get?_offer (e : Entries β) (k : Nat) (body : β) (j : Nat) :
    (e.offer k body).get? j =
      (e.get? j).or (if k = j ∧ j ≤ maxParams then some body else none) := by
  unfold offer
  cases hinstall : e.install k body with
  | ok f =>
    obtain ⟨hk, hempty⟩ := exists_install_iff.mp ⟨f, hinstall⟩
    rw [get?_install hinstall]
    by_cases hj : j = k
    · subst hj
      simp [hk, hempty]
    · simp [hj, Ne.symm hj]
  | error err =>
    by_cases hj : k = j ∧ j ≤ maxParams
    · obtain ⟨rfl, hk⟩ := hj
      cases hget : e.get? k with
      | some old => simp
      | none =>
        have hsome : ∃ f, e.install k body = .ok f := exists_install_iff.mpr ⟨hk, hget⟩
        simp [hinstall] at hsome
    · simp [hj]

/-! ## Several offers in a row -/

/-- The first of these bodies that is meant for a slot. -/
def firstFor (bodies : List (Nat × β)) (j : Nat) : Option β :=
  bodies.findSome? fun b => if b.1 = j ∧ j ≤ maxParams then some b.2 else none

theorem get?_installAll {bodies : List (Nat × β)} (h : e.installAll bodies = .ok f) (j : Nat) :
    f.get? j = (e.get? j).or (firstFor bodies j) := by
  induction bodies generalizing e with
  | nil =>
    obtain rfl := Except.ok.inj h
    simp [firstFor]
  | cons b rest ih =>
    cases hinstall : e.install b.1 b.2 with
    | error err => simp [installAll, List.foldlM_cons, hinstall, bind, Except.bind] at h
    | ok next =>
      have hoffer : e.offer b.1 b.2 = next := by rw [offer, hinstall]
      have hrest : next.installAll rest = .ok f := by
        simpa [installAll, List.foldlM_cons, hinstall, bind, Except.bind] using h
      rw [ih hrest, ← hoffer, get?_offer, Option.or_assoc, firstFor, firstFor, List.findSome?_cons]
      split_ifs <;> simp

/-- Bodies can be installed in a row if each has a slot of its own that is still empty. -/
theorem exists_installAll_iff {bodies : List (Nat × β)} : (∃ f, e.installAll bodies = .ok f) ↔
    (bodies.map Prod.fst).Nodup ∧ ∀ k ∈ bodies.map Prod.fst, k ≤ maxParams ∧ e.get? k = none := by
  induction bodies generalizing e with
  | nil => simp [installAll, pure, Except.pure]
  | cons b rest ih =>
    cases hinstall : e.install b.1 b.2 with
    | error err =>
      have hnone : ¬ (b.1 ≤ maxParams ∧ e.get? b.1 = none) := by
        intro hslot
        have hsome : ∃ f, e.install b.1 b.2 = .ok f := exists_install_iff.mpr hslot
        simp [hinstall] at hsome
      have hfail : e.installAll (b :: rest) = .error err := by
        simp [installAll, List.foldlM_cons, hinstall, bind, Except.bind]
      simp only [hfail, reduceCtorEq, exists_false, List.map_cons, List.forall_mem_cons, false_iff]
      exact fun h => hnone h.2.1
    | ok next =>
      have hsome := exists_install_iff.mp ⟨next, hinstall⟩
      have hstep : e.installAll (b :: rest) = next.installAll rest := by
        simp [installAll, List.foldlM_cons, hinstall, bind, Except.bind]
      have hget : ∀ k, next.get? k = none ↔ k ≠ b.1 ∧ e.get? k = none := by
        intro k
        rw [get?_install hinstall]
        by_cases hk : k = b.1 <;> simp [hk]
      simp only [hstep, ih, hget, List.map_cons, List.nodup_cons, List.forall_mem_cons, hsome,
        true_and]
      constructor
      · rintro ⟨hnodup, hall⟩
        exact ⟨⟨fun hmem => (hall _ hmem).2.1 rfl, hnodup⟩,
          fun k hk => ⟨(hall k hk).1, (hall k hk).2.2⟩⟩
      · rintro ⟨⟨hfirst, hnodup⟩, hall⟩
        exact ⟨hnodup, fun k hk =>
          ⟨(hall k hk).1, fun heq => hfirst (heq ▸ hk), (hall k hk).2⟩⟩

end Entries

namespace Store

variable {β : Type} {st after : Store β} {c d : Callable} {slot : Nat} {body : β}

/-- The store after an offer, accepted or not. -/
def offer (st : Store β) (c : Callable) (slot : Nat) (body : β) : Store β :=
  match st.install c slot body with
  | .ok after => after
  | .error _ => st

theorem callee?_congr (st : Store β) (h : d.id = c.id) : st.callee? d = st.callee? c := by
  rw [callee?, h, callee?]

/-- An offer reaches the callable behind the handle, through whichever copy of it. -/
theorem callee?_offer (st : Store β) (c : Callable) (slot : Nat) (body : β) (d : Callable) :
    (st.offer c slot body).callee? d =
      if d.id = c.id then
        (st.callee? d).map fun callee => { callee with entries := callee.entries.offer slot body }
      else st.callee? d := by
  unfold offer install
  cases hc : st.callee? c with
  | none =>
    by_cases hd : d.id = c.id
    · simp [hd, st.callee?_congr hd, hc]
    · simp [hd]
  | some callee =>
    cases hinstall : callee.entries.install slot body with
    | error e =>
      have hoffer : callee.entries.offer slot body = callee.entries := by
        rw [Entries.offer, hinstall]
      by_cases hd : d.id = c.id
      · simp [hd, st.callee?_congr hd, hc, hinstall, hoffer]
      · simp [hd, hinstall]
    | ok entries =>
      have hoffer : callee.entries.offer slot body = entries := by rw [Entries.offer, hinstall]
      simp only [hinstall, callee?, Table.get?_update]
      by_cases hd : d.id = c.id
      · have hget : st.callees.get? c.id = some callee := hc
        simp [hd, hget, hoffer]
      · simp [hd]

theorem next_offer (st : Store β) (c : Callable) (slot : Nat) (body : β) :
    (st.offer c slot body).next = st.next := by
  unfold offer install
  cases st.callee? c with
  | none => rfl
  | some callee => cases hinstall : callee.entries.install slot body <;> simp [hinstall]

theorem exists_install_iff {callee : Callee β} (hc : st.callee? c = some callee) :
    (∃ after, st.install c slot body = .ok after) ↔
      slot ≤ maxParams ∧ st.body? c slot = none := by
  have hbody : st.body? c slot = callee.entries.get? slot := by rw [body?, hc, Option.bind_some]
  have hentries : (∃ entries, callee.entries.install slot body = .ok entries) ↔
      slot ≤ maxParams ∧ st.body? c slot = none := hbody ▸ Entries.exists_install_iff
  rw [← hentries, install]
  simp only [hc]
  cases callee.entries.install slot body <;> simp

/-- Only one slot is different afterwards, and every handle of the callable sees it. -/
def Fills (st : Store β) (c : Callable) (slot : Nat) (body : β) (after : Store β) : Prop :=
  ∀ d j, after.body? d j = if d.id = c.id ∧ j = slot then some body else st.body? d j

theorem offer_eq (h : st.install c slot body = .ok after) : st.offer c slot body = after := by
  rw [offer, h]

theorem fills_install (h : st.install c slot body = .ok after) : st.Fills c slot body after := by
  obtain ⟨callee, hc⟩ : ∃ callee, st.callee? c = some callee := by
    cases hc : st.callee? c with
    | none => simp [install, hc] at h
    | some callee => exact ⟨callee, rfl⟩
  obtain ⟨hslot, hempty⟩ := (exists_install_iff hc).mp ⟨after, h⟩
  intro d j
  rw [← offer_eq h, body?, callee?_offer]
  by_cases hd : d.id = c.id
  · rw [body?, hc, Option.bind_some] at hempty
    simp only [hd, if_true, true_and, st.callee?_congr hd, hc, Option.map_some, Option.bind_some,
      Entries.get?_offer, body?]
    by_cases hj : j = slot
    · subst hj
      simp [hslot, hempty]
    · simp [hj, Ne.symm hj]
  · simp [hd, body?]

end Store

namespace Boundary

variable {β : Type} {st : Store β} {f : Option Value} {slot : Nat} {body : Option β}

/-- What an embedder gets to install an entry: a closure, and an entry that is not null. -/
inductive Installable (f : Option Value) (body : Option β) : Callable → β → Prop
  | intro {c : Callable} {b : β} : f = some (.callable c) → c.isClosure = true → body = some b →
      Installable f body c b

theorem installEntry_of_installable {c : Callable} {b : β} (h : Installable f body c b) :
    installEntry f slot body st =
      ((st.install c slot b).isOk, st.offer c slot b) := by
  obtain ⟨rfl, hc, rfl⟩ := h
  simp only [installEntry, hc, if_true, Store.offer]
  cases st.install c slot b <;> rfl

theorem installEntry_of_not_installable (h : ∀ c b, ¬ Installable f body c b) :
    installEntry f slot body st = (false, st) := by
  unfold installEntry
  split
  · next c b =>
    have hc : ¬ c.isClosure = true := fun hc => h c b ⟨rfl, hc, rfl⟩
    rw [if_neg hc]
  · rfl

theorem Installable.unique {c c' : Callable} {b b' : β} (h : Installable f body c b)
    (h' : Installable f body c' b') : c' = c ∧ b' = b := by
  obtain ⟨hf, -, hb⟩ := h
  obtain ⟨hf', -, hb'⟩ := h'
  rw [hf] at hf'
  rw [hb] at hb'
  exact ⟨(Value.callable.inj (Option.some.inj hf')).symm, (Option.some.inj hb').symm⟩

/-- An entry is installed across the boundary exactly if it is one, there is a closure for it,
and the slot is there and empty. -/
theorem installEntry_eq_true_iff
    (hlive : ∀ c, f = some (.callable c) → (st.callee? c).isSome) :
    (installEntry f slot body st).1 = true ↔
      ∃ c b, Installable f body c b ∧ slot ≤ maxParams ∧ st.body? c slot = none := by
  by_cases hany : ∃ c b, Installable f body c b
  · obtain ⟨c, b, h⟩ := hany
    obtain ⟨callee, hc⟩ : ∃ callee, st.callee? c = some callee := by
      obtain ⟨hf, -, -⟩ := h
      exact Option.isSome_iff_exists.mp (hlive c hf)
    have hok : (st.install c slot b).isOk = true ↔ ∃ after, st.install c slot b = .ok after := by
      cases st.install c slot b <;> simp [Except.isOk, Except.toBool]
    rw [installEntry_of_installable h, hok, Store.exists_install_iff hc]
    constructor
    · exact fun hslot => ⟨c, b, h, hslot⟩
    · rintro ⟨c', b', h', hslot⟩
      obtain ⟨rfl, rfl⟩ := h.unique h'
      exact hslot
  · have hnone : ∀ c b, ¬ Installable f body c b := fun c b h => hany ⟨c, b, h⟩
    rw [installEntry_of_not_installable hnone]
    simp only [Bool.false_eq_true, false_iff]
    exact fun ⟨c, b, h, _⟩ => hnone c b h

/-- A refusal leaves the store as it is, and a success fills one slot. -/
theorem installEntry_effect :
    ((installEntry f slot body st).1 = false → (installEntry f slot body st).2 = st) ∧
      ∀ c b, Installable f body c b → (installEntry f slot body st).1 = true →
        st.Fills c slot b (installEntry f slot body st).2 := by
  by_cases hany : ∃ c b, Installable f body c b
  · obtain ⟨c, b, h⟩ := hany
    rw [installEntry_of_installable h]
    cases hinstall : st.install c slot b with
    | error e =>
      refine ⟨fun _ => by simp [Store.offer, hinstall], fun c' b' _ hok => ?_⟩
      cases hok
    | ok after =>
      refine ⟨fun hok => ?_, fun c' b' h' _ => ?_⟩
      · cases hok
      · obtain ⟨rfl, rfl⟩ := h.unique h'
        have hoffer := Store.offer_eq hinstall
        simpa only [hoffer] using Store.fills_install hinstall
  · have hnone : ∀ c b, ¬ Installable f body c b := fun c b h => hany ⟨c, b, h⟩
    rw [installEntry_of_not_installable hnone]
    exact ⟨fun _ => rfl, fun c b h => absurd h (hnone c b)⟩

end Boundary

end ArityDispatch

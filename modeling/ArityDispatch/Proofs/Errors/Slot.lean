import ArityDispatch.Proofs.Slots.History

/-!
# The slot of the last error

An environment has one slot for the text of an error. The last event of a history that works on
the slot decides what is in it: an error that was left in the environment, or that the slot was
emptied. No other event matters, and none of another environment. One operation on a store keeps
to this, and so does every history: `Becomes.leaves`.
-/

namespace ArityDispatch

variable {β : Type}

/-- What an event leaves in the slot of an environment, if it works on that slot. -/
def Event.text? (env : String) : Event β → Option (Option String)
  | raised name e => if name = env then some (some e.message) else none
  | emptied name => if name = env then some none else none
  | made .. | offered .. => none

/-- What the last event that works on the slot of an environment leaves there. -/
def lastText? (log : List (Event β)) (env : String) : Option (Option String) :=
  log.reverse.findSome? (Event.text? env)

section
variable {log events : List (Event β)} {env : String}

theorem lastText?_singleton (event : Event β) (env : String) :
    lastText? [event] env = event.text? env := by
  simp only [lastText?, List.reverse_singleton, List.findSome?_cons, List.findSome?_nil]
  cases event.text? env <;> rfl

end

namespace Store

variable {st mid after : Store β} {log events : List (Event β)} {env : String} {e : Environment}

/-- The text in the slot of an environment. -/
def slot? (st : Store β) (env : String) : Option String :=
  (st.environment? env).bind Environment.lastError

theorem slot?_eq (he : st.environment? env = some e) : st.slot? env = e.lastError := by
  rw [slot?, he, Option.bind_some]

/-- The slot of an environment that is there afterwards holds what was left in it, or, if nothing
was, what it held before. -/
def Leaves (st : Store β) (env : String) (left : Option (Option String)) (after : Store β) : Prop :=
  ∀ e', after.environment? env = some e' →
    match left with
    | some text => e'.lastError = text
    | none => ∃ e, st.environment? env = some e ∧ e'.lastError = e.lastError

variable {left left' : Option (Option String)}

theorem Leaves.trans (h : st.Leaves env left mid) (h' : mid.Leaves env left' after) :
    st.Leaves env (left'.or left) after := by
  intro e' he'
  cases left' with
  | some text => exact h' e' he'
  | none =>
    obtain ⟨e, he, hsame⟩ := h' e' he'
    have hbefore := h e he
    cases left with
    | some text => exact hsame.trans hbefore
    | none => exact hbefore.imp fun d hd => ⟨hd.1, hsame.trans hd.2⟩

theorem Leaves.slot?_eq (h : st.Leaves env left after) (hafter : (after.environment? env).isSome) :
    after.slot? env = left.getD (st.slot? env) := by
  obtain ⟨e', he'⟩ := Option.isSome_iff_exists.mp hafter
  have hleft := h e' he'
  rw [Store.slot?_eq he']
  cases left with
  | some text => exact hleft
  | none =>
    obtain ⟨e, he, hsame⟩ := hleft
    rw [Option.getD_none, Store.slot?_eq he, hsame]

/-- The environment is as it was. -/
theorem Leaves.same (h : after.environment? env = st.environment? env)
    (hleft : left = none) : st.Leaves env left after := by
  subst hleft
  exact fun e' he' => ⟨e', h ▸ he', rfl⟩

/-- An operation on one environment, with an event for its slot. -/
theorem Leaves.written {name : String} {event : Event β} {text : Option String}
    (change : Option Environment → Option Environment)
    (h : ∀ env, after.environment? env =
      if env = name then change (st.environment? env) else st.environment? env)
    (hevent : ∀ env, event.text? env = if name = env then some text else none)
    (htext : ∀ before e', change before = some e' → e'.lastError = text) (env : String) :
    st.Leaves env (lastText? [event] env) after := by
  rw [lastText?_singleton, hevent]
  by_cases hname : name = env
  · subst hname
    rw [if_pos rfl]
    intro e' he'
    rw [h, if_pos rfl] at he'
    exact htext _ e' he'
  · exact .same (by rw [h, if_neg (Ne.symm hname)]) (if_neg hname)

end Store

end ArityDispatch

import ArityDispatch.Proofs.Slots.Offers
import ArityDispatch.Release

/-!
# Histories of stores

A store is changed by few operations. Values and vars are made, vars are bound, natives and
closures are made, entries are offered to closures by their hosts or across the boundary, names
are interned, errors are left in environments and taken out of them, environments come and go,
and what nothing holds is given up. A history is a row of such operations, of any length and in
any order. Its log tells which closures were made, which entries were offered to them, accepted
or not, and what was done to the slots for errors.
-/

namespace ArityDispatch

variable {β : Type}

/-- What the log of a history holds. -/
inductive Event (β : Type) where
  | made (c : Callable) (context : Context)
  | offered (c : Callable) (slot : Nat) (body : β)
  /-- An error was left in the environment with this name, if there was one. -/
  | raised (env : String) (e : CallError)
  /-- The slot for errors was emptied, or the environment was made or freed. -/
  | emptied (env : String)

namespace Event

/-- The offers of a builder that is given these entries one after the other. -/
def built (c : Callable) (bodies : List (Nat × β)) : List (Event β) :=
  bodies.map fun b => .offered c b.1 b.2

/-- The offer of an installation across the boundary. Without a closure or without an entry
nothing is offered. -/
def across (f : Option Value) (slot : Nat) (body : Option β) : List (Event β) :=
  match f, body with
  | some (.callable c), some b => if c.isClosure then [.offered c slot b] else []
  | _, _ => []

/-- The entry that an event offers for a slot. No slot is above ten. -/
def offer? (id slot : Nat) : Event β → Option β
  | offered c k body => if c.id = id ∧ k = slot ∧ slot ≤ maxParams then some body else none
  | _ => none

/-- What comes of an operation for an environment leaves its error there. -/
def own (env : String) : Except CallError Value → List (Event β)
  | .ok _ => []
  | .error e => [.raised env e]

end Event

/-- The entry that was offered first for a slot. -/
def firstEntry (log : List (Event β)) (c : Callable) (slot : Nat) : Option β :=
  log.findSome? (Event.offer? c.id slot)

namespace Store

variable {st mid after : Store β} {log log' : List (Event β)}

/-- One operation on a store, and what it adds to the log. Whoever offers an entry holds the
closure, so it is in the store. -/
inductive Operates (st : Store β) : List (Event β) → Store β → Prop
  | claim (n : Nat) : Operates st [] (st.claim n)
  | newVar (ns name : String) (root : Option Value) : Operates st [] (st.newVar ns name root).2
  | bind (v : Var) (value : Value) : Operates st [] (st.bind v value)
  | native (arity : Arity) (description : String) (entries : Entries β) :
      Operates st [] (st.newCallable arity (.native description) { entries }).2
  | closure (arity : Arity) (name : Option String) {c : Callable} {context : Context}
      {bodies : List (Nat × β)} {entries : Entries β} {after : Store β} :
      ({} : Entries β).installAll bodies = .ok entries →
      st.newCallable arity (.closure name) { context, entries } = (c, after) →
      Operates st (.made c context :: Event.built c bodies) after
  | offer {c : Callable} (slot : Nat) (body : β) : c.isClosure = true →
      (st.callee? c).isSome → Operates st [.offered c slot body] (st.offer c slot body)
  | across {f : Option Value} (slot : Nat) (body : Option β) :
      (∀ c, f = some (.callable c) → (st.callee? c).isSome) →
      Operates st (Event.across f slot body) (Boundary.installEntry f slot body st).2
  | intern {env : String} {e : Environment} (ns name : String) : st.environment? env = some e →
      Operates st [] ((e.intern st ns name).2.2.setEnvironment env (e.intern st ns name).2.1)
  | record (env : String) (e : CallError) : Operates st [.raised env e] (st.record env e)
  | clearError (env : String) : Operates st [.emptied env] (st.clearError env)
  | newEnvironment (env : String) {e : Environment} : e.lastError = none →
      Operates st [.emptied env] (st.setEnvironment env e)
  | freeEnvironment (env : String) : Operates st [.emptied env] (st.freeEnvironment env)
  | release (held : List Nat) : Operates st [] (st.release held).1

/-- Any number of operations, one after the other. -/
inductive Becomes (st : Store β) : List (Event β) → Store β → Prop
  | refl : Becomes st [] st
  | operate {log events : List (Event β)} {mid after : Store β} : Becomes st log mid →
      mid.Operates events after → Becomes st (log ++ events) after

theorem Operates.becomes (h : st.Operates log after) : st.Becomes log after := .operate .refl h

theorem Becomes.trans (h : st.Becomes log mid) (h' : mid.Becomes log' after) :
    st.Becomes (log ++ log') after := by
  induction h' with
  | refl => rwa [List.append_nil]
  | operate _ hop ih => rw [← List.append_assoc]; exact .operate ih hop

end Store

end ArityDispatch

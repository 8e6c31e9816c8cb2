import ArityDispatch.Store

/-!
# Release of what nothing holds

A var or a callable lives as long as a value that is still in use holds it. Values are in
use when they are held from outside the store, when they are vars that an environment knows
by name, or when they are the root of a living var. So vars are given up in rounds: each
round gives up those that neither the outside nor an environment nor the root of a remaining
var holds, until a round finds none. A var that its own root leads back to is never given up.
Callables follow once the vars are settled; a callable that owes its context back is reported
when it is given up, and having left the store it is never reported again.
-/

namespace ArityDispatch.Store

variable {β : Type}

/-- The identities of the vars that environments know by name. -/
def named (st : Store β) : List Nat :=
  st.environments.values.flatMap fun e => e.vars.values.map Var.id

/-- The identities that the roots of vars hold. -/
def rootRefs (st : Store β) : List Nat :=
  st.roots.values.flatMap fun root => (root.map Value.refs).getD []

/-- What keeps the cells of the store, given what is held from outside. -/
def keepers (held : List Nat) (st : Store β) : List Nat := held ++ st.named ++ st.rootRefs

/-- One round: gives up the vars that nothing keeps. -/
def giveUpVars (held : List Nat) (st : Store β) : Store β :=
  { st with roots := st.roots.filterKeys fun id => (st.keepers held).contains id }

/-- As many rounds as there are vars, of which the last ones may find nothing. -/
def settleVars (held : List Nat) : Nat → Store β → Store β
  | 0, st => st
  | rounds + 1, st =>
    let after := st.giveUpVars held
    if after.roots.size = st.roots.size then st else settleVars held rounds after

/-- Gives up everything that nothing keeps, and reports the callables among it that owe
their context back. -/
def release (held : List Nat) (st : Store β) : Store β × List Nat :=
  let settled := st.settleVars held st.roots.size
  let kept := settled.keepers held
  let owing := settled.callees.entries.filter fun e => !kept.contains e.1 && e.2.context.owes
  ({ settled with callees := settled.callees.filterKeys kept.contains }, owing.map Prod.fst)

/-! ## What is not given up -/

/-- The rounds change nothing but the roots. -/
theorem settleVars_eq (held : List Nat) (rounds : Nat) (st : Store β) :
    ∃ roots, st.settleVars held rounds = { st with roots } := by
  induction rounds generalizing st with
  | zero => exact ⟨st.roots, rfl⟩
  | succ rounds ih =>
    simp only [settleVars]
    split
    · exact ⟨st.roots, rfl⟩
    · exact ih (st.giveUpVars held)

@[simp] theorem environments_release (held : List Nat) (st : Store β) :
    (st.release held).1.environments = st.environments := by
  obtain ⟨roots, h⟩ := st.settleVars_eq held st.roots.size
  simp only [release, h]

end ArityDispatch.Store

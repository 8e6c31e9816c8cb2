import ArityDispatch.Proofs.Values.Equality
import ArityDispatch.Session.State
import Mathlib.Logic.Relation

/-!
# What a session holds

A session has values in its hands: those held under a name, and the vars of the names that
are known in its environments. From there it reaches the elements of collections and the
roots of vars, and what these hold in turn. `Session.Holds` says this without counting
anything, and without a look at what the store would give up.

The store itself works with the identities that occur in a value, `Value.refs`. They are the
identities of the vars and callables that the value contains.
-/

namespace ArityDispatch

namespace Value

/-- The identity under which the store keeps what is behind a handle. -/
def cell? : Value → Option Nat
  | var v => some v.id
  | callable c => some c.id
  | _ => none

/-- A value contains itself, its elements, and what these contain. -/
def Contains : Value → Value → Prop := Relation.ReflTransGen fun v w => w ∈ v.elements

theorem contains_iff {v w : Value} : v.Contains w ↔ v = w ∨ ∃ u ∈ v.elements, u.Contains w :=
  Relation.ReflTransGen.cases_head_iff

theorem refsItems_eq_flatMap (vs : List Value) : refsItems vs = vs.flatMap refs := by
  induction vs with
  | nil => rfl
  | cons v vs ih => rw [refsItems, ih, List.flatMap_cons]

theorem refsEntries_eq_flatMap (es : List (Value × Value)) :
    refsEntries es = (es.flatMap fun e => [e.1, e.2]).flatMap refs := by
  induction es with
  | nil => rfl
  | cons e es ih => simp [refsEntries, ih]

theorem refs_eq (v : Value) : v.refs = v.cell?.toList ++ v.elements.flatMap refs := by
  cases v with
  | list _ items => exact refsItems_eq_flatMap items
  | vector _ items => exact refsItems_eq_flatMap items
  | set _ items => exact refsItems_eq_flatMap items
  | map _ entries => exact refsEntries_eq_flatMap entries
  | _ => rfl

theorem mem_refs_iff {id : Nat} (v : Value) :
    id ∈ v.refs ↔ ∃ w, v.Contains w ∧ w.cell? = some id := by
  have helements : (∃ u ∈ v.elements, id ∈ u.refs) ↔
      ∃ u ∈ v.elements, ∃ w, u.Contains w ∧ w.cell? = some id := by
    constructor
    · rintro ⟨u, hu, hid⟩
      exact ⟨u, hu, (mem_refs_iff u).mp hid⟩
    · rintro ⟨u, hu, hw⟩
      exact ⟨u, hu, (mem_refs_iff u).mpr hw⟩
  rw [refs_eq, List.mem_append, Option.mem_toList, List.mem_flatMap, helements]
  constructor
  · rintro (hv | ⟨u, hu, w, hw, hid⟩)
    · exact ⟨v, .refl, hv⟩
    · exact ⟨w, contains_iff.mpr (.inr ⟨u, hu, hw⟩), hid⟩
  · rintro ⟨w, hw, hid⟩
    rcases contains_iff.mp hw with rfl | ⟨u, hu, hw⟩
    · exact .inl hid
    · exact .inr ⟨u, hu, w, hw, hid⟩
termination_by sizeOf v
decreasing_by all_goals exact sizeOf_lt_of_mem_elements hu

end Value

namespace Store

variable {β : Type} {st : Store β} {v w : Value}

/-- From a collection to an element, or from a var to its root. -/
inductive Leads (st : Store β) : Value → Value → Prop
  | element {v w : Value} : w ∈ v.elements → Leads st v w
  | root {x : Var} {w : Value} : st.root? x = some w → Leads st (.var x) w

def Reaches (st : Store β) : Value → Value → Prop := Relation.ReflTransGen st.Leads

/-- From the root of one var another can be reached, which may be the same. -/
def Feeds (st : Store β) (a b : Nat) : Prop :=
  ∃ x y root, x.id = a ∧ y.id = b ∧ st.root? x = some root ∧ st.Reaches root (.var y)

theorem Reaches.of_contains (h : v.Contains w) : st.Reaches v w := by
  induction h with
  | refl => exact .refl
  | tail _ hw ih => exact ih.tail (.element hw)

/-- The root of a var depends on nothing but its identity. -/
theorem root?_congr {x y : Var} (h : x.id = y.id) : st.root? x = st.root? y := by
  rw [root?, h, root?]

theorem Feeds.trans {a b c : Nat} (h : st.Feeds a b) (h' : st.Feeds b c) : st.Feeds a c := by
  obtain ⟨x, y, root, hx, hy, hroot, hreach⟩ := h
  obtain ⟨y', z, root', hy', hz, hroot', hreach'⟩ := h'
  have hnext : st.Leads (.var y) root' := .root (root?_congr (hy.trans hy'.symm) ▸ hroot')
  exact ⟨x, z, root, hx, hz, hroot, (hreach.tail hnext).trans hreach'⟩

end Store

namespace Session

variable {s : Session} {v : Value}

/-- What a session has directly: the values under names, and the vars of known names. -/
inductive InHand (s : Session) : Value → Prop
  | handle {name : String} {v : Value} : s.handles.get? name = some v → InHand s v
  | known {env : String} {e : Environment} {ns name : String} {x : Var} :
      s.environment? env = some e → e.find? ns name = some x → InHand s (.var x)

def Holds (s : Session) (v : Value) : Prop := ∃ u, s.InHand u ∧ s.store.Reaches u v

/-- Some handle of the callable with this identity is held. -/
def HoldsCallable (s : Session) (id : Nat) : Prop := ∃ c, c.id = id ∧ s.Holds (.callable c)

theorem Holds.trans {w : Value} (h : s.Holds v) (hw : s.store.Reaches v w) : s.Holds w := by
  obtain ⟨u, hu, hv⟩ := h
  exact ⟨u, hu, hv.trans hw⟩

theorem InHand.holds {w : Value} (h : s.InHand v) (hw : s.store.Reaches v w) : s.Holds w :=
  ⟨v, h, hw⟩

end Session

end ArityDispatch

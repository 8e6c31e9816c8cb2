import ArityDispatch.Proofs.Release.Contexts

/-!
# Commands that change nothing

A command may fail, or read without writing. Then every var has the root that it had, every
callable its entries and its context, every environment its names and settings, and nothing is
given back that was not given back before. Identities may have been used up, and an error may
have been left, in one environment and in no other.

A store from which nothing can be given up stays so as long as whatever was in the hands of the
session still is. So giving up what nothing holds, which ends each command, finds nothing
after a command that changes nothing.
-/

namespace ArityDispatch

namespace Session

variable {s s' s'' : Session} {error : Option (String × CallError)} {name env : String}
  {e : Environment} {v : Value}

/-- What becomes of the environment with this name when the error is left, if there is one. -/
def leave (error : Option (String × CallError)) (name : String) (e : Environment) : Environment :=
  match error with
  | some (env, err) => if name = env then { e with lastError := some err.message } else e
  | none => e

/-- Nothing that can be seen differs between the two, except that the second may hold more under
further names, and that the error has been left. -/
structure Unchanged (s s' : Session) (error : Option (String × CallError)) : Prop where
  roots : s'.store.roots = s.store.roots
  callees : s'.store.callees = s.store.callees
  environments : ∀ name, s'.environment? name = (s.environment? name).map (leave error name)
  handles : ∀ {name v}, s.handles.get? name = some v → s'.handles.get? name = some v
  released : s'.released = s.released

/-- Nothing is held under the name that the answer is to be kept under, if there is one. -/
def IsFree (s : Session) (keep : Option String) : Prop :=
  ∀ name, keep = some name → s.handles.get? name = none

theorem find?_leave (error : Option (String × CallError)) (name : String) (e : Environment) :
    (leave error name e).find? = e.find? := by
  unfold leave
  split
  · split_ifs <;> rfl
  · rfl

/-! ## Moves that change nothing -/

namespace Unchanged

theorem refl (s : Session) : s.Unchanged s none where
  roots := rfl
  callees := rfl
  environments name := by cases s.environment? name <;> rfl
  handles h := h
  released := rfl

/-- Only identities have been used up before. -/
theorem of_drawn {n : Nat} (h : (s.drawn n).Unchanged s' error) : s.Unchanged s' error :=
  ⟨h.roots, h.callees, h.environments, h.handles, h.released⟩

theorem drawn (h : s.Unchanged s' error) (n : Nat) : s.Unchanged (s'.drawn n) error :=
  ⟨h.roots, h.callees, h.environments, h.handles, h.released⟩

theorem hold (h : s.Unchanged s' error) (hname : s.handles.get? name = none) (v : Value) :
    s.Unchanged (s'.hold name v) error where
  roots := h.roots
  callees := h.callees
  environments := h.environments
  released := h.released
  handles {other w} hw := by
    have hne : other ≠ name := by
      rintro rfl
      rw [hname] at hw
      cases hw
    rw [Session.hold, Table.get?_insert, if_neg hne]
    exact h.handles hw

/-- An error is left in an environment. -/
theorem record (h : s.Unchanged s' none) (env : String) (err : CallError) :
    s.Unchanged (s'.withStore (s'.store.record env err)) (some (env, err)) where
  roots := h.roots
  callees := h.callees
  handles := h.handles
  released := h.released
  environments name := by
    have hsame : s'.environment? name = s.environment? name := by
      rw [h.environments, show leave none name = id from rfl, Option.map_id_apply]
    have hleft : (s'.withStore (s'.store.record env err)).environment? name =
        if name = env then (s'.environment? name).map (·.record err) else s'.environment? name :=
      s'.store.environment?_record env name err
    rw [hleft, hsame]
    cases s.environment? name with
    | none => exact ite_self _
    | some e => exact (apply_ite some (name = env) _ e).symm

/-- Whatever was in the hands of the session still is. -/
theorem inHand (h : s.Unchanged s' error) (hv : s.InHand v) : s'.InHand v := by
  cases hv with
  | handle hget => exact .handle (h.handles hget)
  | @known env e ns name x henv hfind =>
    have hleft : s'.environment? env = some (leave error env e) := by
      rw [h.environments, henv, Option.map_some]
    exact .known hleft ((congrFun₂ (find?_leave error env e) ns name).trans hfind)

end Unchanged

/-! ## Nothing to give up -/

variable {given : List (Nat × Context)}

theorem Balanced.settled_of_unchanged (h : s.Balanced given) (hun : s.Unchanged s' error)
    (hs : s'.Sound) : s'.store.Settled s'.held := by
  have hheld : s.held ++ s.store.named ⊆ s'.held ++ s'.store.named := by
    intro id hid
    obtain ⟨v, hv, hrefs⟩ := h.sound.mem_held_iff.mp hid
    exact hs.mem_held_iff.mpr ⟨v, hun.inHand hv, hrefs⟩
  have hkeepers : s.store.keepers s.held ⊆ s'.store.keepers s'.held := by
    have hroots : s'.store.rootRefs = s.store.rootRefs := by
      rw [Store.rootRefs, hun.roots, Store.rootRefs]
    intro id hid
    rw [Store.keepers, hroots]
    exact List.mem_append.mpr ((List.mem_append.mp hid).imp_left fun hmem => hheld hmem)
  constructor
  · rw [hun.roots]
    exact fun id hid => hkeepers (h.settled.roots id hid)
  · rw [hun.callees]
    exact fun id hid => hkeepers (h.settled.callees id hid)

/-- A command that changes nothing before things are given up changes nothing at all, unless its
answer takes the place of something that is held. -/
theorem Balanced.step_unchanged (h : s.Balanced given) {command : Command} {answer : Answer}
    {keep : Option String} (hexecute : s.execute command = some (answer, s'))
    (hun : s.Unchanged s' error) (hkeep : answer.object? = none ∨ s.IsFree keep) :
    ∃ s'', s.step command keep = some (answer, s'') ∧ s.Unchanged s'' error := by
  have hkeeps := h.sound.execute hexecute
  cases hv : answer.object? with
  | none =>
    have hsettled := h.settled_of_unchanged hun hkeeps.grows.sound
    refine ⟨s', ?_, hun⟩
    simp only [step, hexecute, Option.map_some, hv, settle_eq_self hsettled]
  | some v =>
    cases keep with
    | none =>
      have hsettled := h.settled_of_unchanged hun hkeeps.grows.sound
      refine ⟨s', ?_, hun⟩
      simp only [step, hexecute, Option.map_some, hv, settle_eq_self hsettled]
    | some name =>
      have hfree : s.handles.get? name = none := by
        rcases hkeep with hnone | hfree
        · simp [hv] at hnone
        · exact hfree name rfl
      have hheld := hkeeps.grows.sound.hold name (hkeeps.live hv)
      have hsettled := h.settled_of_unchanged (hun.hold hfree v) hheld.sound
      refine ⟨s'.hold name v, ?_, hun.hold hfree v⟩
      simp only [step, hexecute, Option.map_some, hv, settle_eq_self hsettled]

/-! ## Operations for an environment -/

/-- What an operation leaves in the environment that it works for, if there is one. -/
def failure (env : Option String) : Except CallError Value → Option (String × CallError)
  | .ok _ => none
  | .error e => env.map fun name => (name, e)

/-- An operation that leaves the store alone but for its identities. -/
theorem atBoundary_unchanged (operation : String → Environment → Store Body → Outcome Body)
    {result : Except CallError Value} {n : Nat} (he : s.environment? env = some e)
    (hop : operation env e s.store = (result, { s.store with next := n })) :
    ∃ s', s.atBoundary (some env) operation = some (.ofPointer result.toOption, s') ∧
      s.Unchanged s' (failure (some env) result) := by
  have hperform : s.atBoundary (some env) operation =
      some (.ofPointer (Boundary.finish env (result, { s.store with next := n })).1,
        s.withStore (Boundary.finish env (result, { s.store with next := n })).2) := by
    have henv : s.store.environment? env = some e := he
    simp only [atBoundary, Boundary.perform, henv, Option.map_some, hop]
  have hdrawn : s.Unchanged (s.drawn n) none := (Unchanged.refl s).drawn n
  cases result with
  | ok v => exact ⟨_, hperform, hdrawn⟩
  | error err => exact ⟨_, hperform, hdrawn.record env err⟩

end Session

end ArityDispatch

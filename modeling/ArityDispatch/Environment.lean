import ArityDispatch.CallError
import ArityDispatch.Settings.Basic
import ArityDispatch.Table
import ArityDispatch.Value.Basic

/-!
# Environments

An environment belongs to one embedding. It owns the settings, the names that have been
interned, each with its var, and a slot for the text of the last error.
-/

namespace ArityDispatch

structure Environment where
  settings : Settings := {}
  vars : Table (String × String) Var := {}
  lastError : Option String := none
deriving Inhabited

namespace Environment

/-- An environment with these settings. The level matters only if a subscriber is to be
installed. -/
def create (s : Settings) : Except SettingsError Environment :=
  if s.subscriber then s.checked.map fun settings => { settings } else .ok { settings := s }

/-- No error is there at first. -/
theorem lastError_create {s : Settings} {env : Environment} (h : create s = .ok env) :
    env.lastError = none := by
  unfold create at h
  split at h
  · cases hchecked : s.checked with
    | error e => simp [hchecked, Except.map] at h
    | ok checked =>
      simp only [hchecked, Except.map, Except.ok.injEq] at h
      exact h ▸ rfl
  · cases h
    rfl

def find? (env : Environment) (ns name : String) : Option Var := env.vars.get? (ns, name)

def record (env : Environment) (e : CallError) : Environment :=
  { env with lastError := some e.message }

def clearError (env : Environment) : Environment := { env with lastError := none }

/-- The text in the slot, if it can be handed out with an end mark. -/
def lastErrorText? (env : Environment) : Option String :=
  env.lastError.filter Text.isTerminable

end Environment

end ArityDispatch

/-!
# Call errors

What can go wrong while a call is resolved or performed, a descriptor is requested, an
entry is installed, or a pointer crosses the embedding boundary. Each constructor is a
cause; `message` is the only place where the wording is decided.
-/

namespace ArityDispatch

inductive CallError where
  /-- The callee has no entry for this many arguments. -/
  | invalidArity (count : Nat) (callee : String)
  /-- More than ten arguments for a callee that takes no rest list. -/
  | unsupportedArity (count : Nat) (callee : String)
  /-- The body behind an entry of a closure gave no value. -/
  | nativeFailure (slot : Nat) (callee : String)
  | unboundVar (name : String)
  | notSeqable (shown : String)
  | notAVar (shown : String)
  | arityOutOfRange (fixed : Nat)
  | ambiguousWithoutVariadic
  | entryAlreadySet (slot : Nat)
  | invalidEntrySlot (slot : Nat)
  /-- A required pointer was null; the text names the parameter. -/
  | nullPointer (parameter : String)
  | invalidUtf8
deriving DecidableEq, Repr, Inhabited

namespace CallError

def message : CallError → String
  | invalidArity n callee => "invalid call with " ++ toString n ++ " args to: " ++ callee
  | unsupportedArity n callee => "unsupported arity: " ++ toString n ++ " for " ++ callee
  | nativeFailure n callee =>
    "native entry for arity " ++ toString n ++ " of " ++ callee ++ " returned no value"
  | unboundVar name => "unbound var: " ++ name
  | notSeqable shown => shown ++ " is not seqable"
  | notAVar shown => shown ++ " is not a var"
  | arityOutOfRange n => "highest fixed arity " ++ toString n ++ " exceeds the maximum of 10"
  | ambiguousWithoutVariadic => "variadic ambiguity flag set on a non-variadic descriptor"
  | entryAlreadySet n => "entry slot for arity " ++ toString n ++ " is already set"
  | invalidEntrySlot n => "no entry slot for arity " ++ toString n
  | nullPointer parameter => "null pointer passed for " ++ parameter
  | invalidUtf8 => "invalid UTF-8 in C string"

/-- Whether the argument count of a call is to blame. -/
def isArityError : CallError → Bool
  | invalidArity .. | unsupportedArity .. => true
  | _ => false

end CallError

end ArityDispatch

import ArityDispatch.Boundary

/-!
# Entry bodies

A small language of entry bodies: recording the arguments, adding them up, failing,
calling or applying the first argument, and rebinding a var. Bodies call through the same
paths as any other caller. A body may drop the failure of a call that it makes, and it may
come back across the embedding boundary, to call for an environment or to intern a name in one.

A body that calls gives away its first argument, which has to be a callable or a var for
anything to be entered, and hands over nothing that it was not given. So each nested entry
receives fewer handles than the one before, and a number of rounds one above the number of
handles is never used up.
-/

namespace ArityDispatch

inductive Body where
  /-- A vector of the argument count and the arguments. -/
  | record
  /-- As `record`, with the base of the context in front. -/
  | ctx
  /-- The base plus integers and lengths of lists, wrapping around at 64 bits. -/
  | sum
  | fail
  /-- Calls the first argument with the others. -/
  | call
  /-- Applies the first argument to the last. -/
  | apply
  /-- Binds the var in first place to the last of at least two arguments. -/
  | rebind
  /-- As `call`, but drops a failure and gives `nil` then. -/
  | attempt
  /-- As `call`, but across the boundary for this environment. A null pointer becomes `nil`. -/
  | reenter (env : String)
  /-- Interns the text in first place in this environment, under the default namespace. -/
  | intern (env : String)
deriving DecidableEq, Repr, Inhabited

namespace Body

/-- What one argument adds to a sum. -/
def addend? : Value → Option Int64
  | .integer n => some n
  | .list _ items => some (Int64.ofNat items.length)
  | .nil => some 0
  | _ => none

def total? (base : Int64) (args : List Value) : Option Int64 :=
  args.foldlM (fun acc v => (addend? v).map (acc + ·)) base

/-- How every body of this language fails. -/
def failure : CallError := .notSeqable "raised"

def count (args : List Value) : Value := .integer (Int64.ofNat args.length)

/-- Runs a body for which at most `rounds` nested entries are left. -/
def runFor : Nat → Behaviour Body
  | 0, _, _, _, st => (.error failure, st)
  | rounds + 1, body, base, args, st =>
    match body with
    | record => (.ok (.vector st.next (count args :: args)), st.claim 1)
    | ctx =>
      let first := (base.map Value.integer).getD .nil
      (.ok (.vector st.next (first :: count args :: args)), st.claim 1)
    | sum =>
      match total? (base.getD 0) args with
      | some n => (.ok (.integer n), st)
      | none => (.error failure, st)
    | fail => (.error failure, st)
    | call =>
      match args with
      | [] => (.ok .nil, st)
      | f :: rest => st.call (runFor rounds) f rest
    | apply =>
      match args.head?, args.getLast? with
      | some f, some collection => st.apply (runFor rounds) f collection
      | _, _ => (.ok .nil, st)
    | rebind =>
      match args.head?, args.tail.getLast? with
      | some (.var v), some value => (.ok (.keyword "rebound"), st.bind v value)
      | _, _ => (.error (.notAVar "rebind"), st)
    | attempt =>
      match args with
      | [] => (.ok .nil, st)
      | f :: rest =>
        let (result, after) := st.call (runFor rounds) f rest
        (.ok (result.toOption.getD .nil), after)
    | reenter env =>
      match args with
      | [] => (.ok .nil, st)
      | f :: rest =>
        let operation := Boundary.call (runFor rounds) (some f) (rest.map some)
        match Boundary.perform (some env) (fun _ _ => operation) st with
        | some (result, after) => (.ok (result.getD .nil), after)
        | none => (.ok .nil, st)
    | intern env =>
      match args.head?, st.environment? env with
      | some (.string name), some e =>
        let (v, e, after) := e.internIn st none name
        (.ok (.var v), after.setEnvironment env e)
      | _, _ => (.ok .nil, st)

/-- Runs a body. -/
def run : Behaviour Body := fun body base args st =>
  runFor ((Value.refsItems args).length + 1) body base args st

end Body

end ArityDispatch

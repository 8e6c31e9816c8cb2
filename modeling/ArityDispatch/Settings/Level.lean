import ArityDispatch.Text.Blank

/-!
# Log levels

A level is written as its name, in any mixture of cases, or as its number from 1 to 5.
Blanks around either do not count. A number may have a plus sign and leading zeros; one that
does not fit into 64 bits is no number.
-/

namespace ArityDispatch

inductive Level where
  | error
  | warn
  | info
  | debug
  | trace
deriving DecidableEq, Repr, Inhabited

namespace Level

def name : Level → String
  | error => "error"
  | warn => "warn"
  | info => "info"
  | debug => "debug"
  | trace => "trace"

/-- From the least talkative to the most. -/
def all : List Level := [error, warn, info, debug, trace]

def number (l : Level) : Nat :=
  match l with
  | error => 1
  | warn => 2
  | info => 3
  | debug => 4
  | trace => 5

def ofNumber? (n : Nat) : Option Level := all.find? (·.number = n)

/-- The number with one more decimal digit, if it fits into 64 bits. -/
def appendDigit? (n : Nat) (c : Char) : Option Nat :=
  let m := 10 * n + (c.toNat - '0'.toNat)
  if c.isDigit ∧ m < UInt64.size then some m else none

/-- The number that decimal digits denote, if there are any and nothing else, and the number
fits into 64 bits. -/
def natOfDigits? (s : List Char) : Option Nat :=
  if s.isEmpty then none else s.foldlM appendDigit? 0

def natOfLiteral? : List Char → Option Nat
  | '+' :: digits => natOfDigits? digits
  | digits => natOfDigits? digits

def ofName? (s : List Char) : Option Level :=
  all.find? fun l => s.map Char.toLower = l.name.toList

/-- The level that a text names by its number, or else by its name. -/
def ofText? (s : List Char) : Option Level :=
  let core := Text.trim s
  ((natOfLiteral? core).bind ofNumber?).or (ofName? core)

end Level

end ArityDispatch

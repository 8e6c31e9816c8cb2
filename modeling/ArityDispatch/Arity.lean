import ArityDispatch.CallError

/-!
# Arity descriptors

A callable describes its shape in one byte. The six low bits hold the highest fixed
arity, the top bit says that a rest list is accepted, and the bit below it says that an
exact call at the variadic boundary has a fixed entry of its own. Every byte is a
descriptor; `Arity.checked` gives only those that every call can be resolved for.
-/

namespace ArityDispatch

/-- Most parameters an entry can take. -/
def maxParams : Nat := 10

/-- One entry slot for each parameter count from zero to `maxParams`. -/
def entrySlots : Nat := maxParams + 1

structure Arity where
  bits : UInt8 := 0
deriving DecidableEq, Repr, Inhabited

namespace Arity

def fixedMask : UInt8 := 0x3F

def ambiguousBit : UInt8 := 0x40

def variadicBit : UInt8 := 0x80

/-- The mask of a descriptor that takes no rest list; no argument count reaches it. -/
def noBoundary : UInt8 := 0xFF

/-- What a refused request for a descriptor returns in place of one. -/
def refused : UInt8 := 0x7F

/-- Packs the three fields; a fixed arity above 63 loses its high bits. -/
def encode (fixed : UInt8) (variadic ambiguous : Bool) : Arity :=
  ⟨(fixed &&& fixedMask) ||| (if variadic then variadicBit else 0) |||
    (if ambiguous then ambiguousBit else 0)⟩

/-- The descriptor of fixed arities only. -/
def fixed (highest : UInt8) : Arity := encode highest false false

/-- The descriptor of a callable whose rest starts after `k` arguments. -/
def variadic (k : UInt8) (ambiguous : Bool) : Arity := encode k true ambiguous

def highestFixed (a : Arity) : UInt8 := a.bits &&& fixedMask

def isVariadic (a : Arity) : Bool := a.bits &&& variadicBit != 0

def isAmbiguous (a : Arity) : Bool := a.bits &&& ambiguousBit != 0

/-- The argument count at which the rest starts, if a rest is taken at all. -/
def boundary (a : Arity) : Option Nat :=
  if a.isVariadic then some a.highestFixed.toNat else none

/-- The boundary as one byte. -/
def mask (a : Arity) : UInt8 :=
  if a.isVariadic then a.highestFixed else noBoundary

/-- A descriptor with no more fixed arguments than there are parameters, and without
ambiguity where no rest is taken. -/
def checked (fixed : UInt8) (variadic ambiguous : Bool) : Except CallError Arity :=
  if maxParams < fixed.toNat then .error (.arityOutOfRange fixed.toNat)
  else if ambiguous && !variadic then .error .ambiguousWithoutVariadic
  else .ok (encode fixed variadic ambiguous)

/-- The short form, as log lines show it. -/
def text (a : Arity) : String :=
  let n := toString a.highestFixed.toNat
  if a.isVariadic then
    if a.isAmbiguous then "variadic>=" ++ n ++ " (ambiguous)" else "variadic>=" ++ n
  else "fixed<=" ++ n

/-- The long form, with every field by name. -/
def fields (a : Arity) : String :=
  "ArityFlags \x7b highest_fixed_arity: " ++ toString a.highestFixed.toNat ++
    ", is_variadic: " ++ toString a.isVariadic ++
    ", is_ambiguous: " ++ toString a.isAmbiguous ++ " \x7d"

theorem mask_eq_boundary (a : Arity) :
    a.mask.toNat = a.boundary.getD noBoundary.toNat := by
  unfold mask boundary
  split <;> rfl

end Arity

end ArityDispatch

import ArityDispatch.Decimal

/-!
# Binary floating-point numbers of 64 bits

A real number of the runtime is kept as its bits, so that equality, hashing and printing
are decided on the encoding: one sign bit, eleven exponent bits and fifty-two fraction
bits. Equality is numerical: the two zeros are equal, and a NaN equals nothing.

A whole number prints with all its digits and `.0`; any other finite number prints the
shortest decimal that stands for it, without an exponent.
-/

namespace ArityDispatch

structure Binary64 where
  bits : UInt64
deriving DecidableEq, Repr, Inhabited

namespace Binary64

def isNegative (x : Binary64) : Bool := x.bits >>> 63 != 0

def exponentField (x : Binary64) : Nat := ((x.bits >>> 52) &&& 0x7FF).toNat

def fraction (x : Binary64) : Nat := (x.bits &&& 0xFFFFFFFFFFFFF).toNat

def isNaN (x : Binary64) : Bool := x.exponentField == 0x7FF && x.fraction != 0

def isInfinite (x : Binary64) : Bool := x.exponentField == 0x7FF && x.fraction == 0

def isZero (x : Binary64) : Bool := x.bits <<< 1 == 0

/-- Numerical equality. -/
def eq (x y : Binary64) : Bool :=
  !x.isNaN && !y.isNaN && (x.bits == y.bits || (x.isZero && y.isZero))

/-- One encoding for each class of numbers that equality or hashing does not tell apart. -/
def canonicalBits (x : Binary64) : UInt64 :=
  if x.isZero then 0 else if x.isNaN then 0x7FF8000000000000 else x.bits

/-- The significand as an integer, with the leading bit that normal numbers leave out. -/
def significand (x : Binary64) : Nat :=
  if x.exponentField = 0 then x.fraction else x.fraction + Nat.pow 2 52

/-- A finite number is `numerator / 2 ^ shift` up to its sign. -/
def numerator (x : Binary64) : Nat :=
  x.significand * Nat.pow 2 (max x.exponentField 1 - 1075)

def shift (x : Binary64) : Nat := 1075 - max x.exponentField 1

def isWhole (x : Binary64) : Bool := x.numerator % Nat.pow 2 x.shift == 0

/-- The span of a number that is not whole. The step below a power of two is half as wide,
except at the least normal exponent. -/
def span (x : Binary64) : Decimal.Span where
  m := x.significand
  s := x.shift
  narrow := x.fraction == 0 && 1 < x.exponentField
  closed := x.significand % 2 == 0

/-- The printed magnitude of a finite number. -/
def magnitude (x : Binary64) : List Char :=
  if x.isWhole then Decimal.digits (x.numerator / Nat.pow 2 x.shift) ++ ['.', '0']
  else
    let (n, places) := x.span.shortest
    Decimal.positional n places

def spell (x : Binary64) : List Char :=
  if x.isNaN then ['N', 'a', 'N']
  else
    let sign := if x.isNegative then ['-'] else []
    if x.isInfinite then sign ++ ['i', 'n', 'f'] else sign ++ x.magnitude

theorem eq_comm (x y : Binary64) : x.eq y = y.eq x := by
  unfold eq
  rw [Bool.and_comm (!x.isNaN), Bool.and_comm x.isZero, Bool.beq_comm]

theorem eq_self (x : Binary64) : x.eq x = !x.isNaN := by
  simp [eq]

theorem eq_iff (x y : Binary64) : x.eq y = true ↔
    x.isNaN = false ∧ y.isNaN = false ∧ (x = y ∨ x.isZero = true ∧ y.isZero = true) := by
  have hbits : x.bits = y.bits ↔ x = y := by
    cases x
    cases y
    simp
  simp [eq, hbits, and_assoc]

theorem eq_trans {x y z : Binary64} (hxy : x.eq y = true) (hyz : y.eq z = true) :
    x.eq z = true := by
  rw [eq_iff] at hxy hyz ⊢
  obtain ⟨hx, _, rfl | ⟨hzx, hzy⟩⟩ := hxy
  · exact hyz
  · obtain ⟨_, hz, rfl | ⟨_, hzz⟩⟩ := hyz
    · exact ⟨hx, hz, .inr ⟨hzx, hzy⟩⟩
    · exact ⟨hx, hz, .inr ⟨hzx, hzz⟩⟩

/-- Equal numbers are hashed alike. -/
theorem canonicalBits_eq {x y : Binary64} (h : x.eq y = true) :
    x.canonicalBits = y.canonicalBits := by
  rw [eq_iff] at h
  obtain ⟨_, _, rfl | ⟨hx, hy⟩⟩ := h
  · rfl
  · simp only [canonicalBits, hx, hy, if_true]

end Binary64

end ArityDispatch

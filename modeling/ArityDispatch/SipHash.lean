/-!
# SipHash-1-3

A keyed hash of a byte string to 64 bits, here with the zero key: one round for each word
of eight bytes and three rounds at the end. The last word holds the bytes that are left
over, and in its top byte the length of the string modulo 256.
-/

namespace ArityDispatch.SipHash

structure State where
  v0 : UInt64
  v1 : UInt64
  v2 : UInt64
  v3 : UInt64

def rotl (x r : UInt64) : UInt64 := (x <<< r) ||| (x >>> (64 - r))

def round (s : State) : State :=
  let a := s.v0 + s.v1
  let b := a ^^^ rotl s.v1 13
  let c := s.v2 + s.v3
  let d := c ^^^ rotl s.v3 16
  let e := rotl a 32 + d
  let f := c + b
  ⟨e, f ^^^ rotl b 17, rotl f 32, e ^^^ rotl d 21⟩

/-- The state for the zero key. -/
def start : State :=
  ⟨0x736f6d6570736575, 0x646f72616e646f6d, 0x6c7967656e657261, 0x7465646279746573⟩

def absorb (s : State) (word : UInt64) : State :=
  let t := round { s with v3 := s.v3 ^^^ word }
  { t with v0 := t.v0 ^^^ word }

/-- The bytes as one number, the first byte lowest. -/
def littleEndian : List UInt8 → UInt64
  | [] => 0
  | b :: rest => b.toUInt64 ||| (littleEndian rest <<< 8)

/-- Absorbs all whole words and then the last, which `count` closes. -/
def absorbAll (count : Nat) : State → List UInt8 → State
  | s, b0 :: b1 :: b2 :: b3 :: b4 :: b5 :: b6 :: b7 :: rest =>
    absorbAll count (absorb s (littleEndian [b0, b1, b2, b3, b4, b5, b6, b7])) rest
  | s, rest => absorb s (littleEndian rest ||| (UInt64.ofNat (count % 256) <<< 56))

def finish (s : State) : UInt64 :=
  let t := round (round (round { s with v2 := s.v2 ^^^ 0xFF }))
  t.v0 ^^^ t.v1 ^^^ t.v2 ^^^ t.v3

def digest (bytes : List UInt8) : UInt64 :=
  finish (absorbAll bytes.length start bytes)

end ArityDispatch.SipHash

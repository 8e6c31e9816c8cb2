import ArityDispatch.SipHash
import ArityDispatch.Text.Bytes
import ArityDispatch.Value.Basic

/-!
# Hashing of values

A value is written as bytes: the number of its variant as a word of eight bytes, then its
payload. The
elements of a list or a vector are written one after the other. A map or a set has no
order, so its elements are hashed apart and the sum of the hashes is written; each entry of
a map contributes the hash of its key with the rotated hash of its value. Numbers that are
equal are written alike, and so are all NaNs.

The encoding is stated over any digest of byte strings. `Value.hash` uses SipHash-1-3.
-/

namespace ArityDispatch

/-- Eight bytes, the lowest first. -/
def wordBytes (w : UInt64) : List UInt8 :=
  [w.toUInt8, (w >>> 8).toUInt8, (w >>> 16).toUInt8, (w >>> 24).toUInt8,
    (w >>> 32).toUInt8, (w >>> 40).toUInt8, (w >>> 48).toUInt8, (w >>> 56).toUInt8]

/-- A text, closed by a byte that no text holds. -/
def textBytes (s : String) : List UInt8 := Text.toBytes s ++ [0xFF]

mutual

/-- The bytes of a value over a digest for the elements of maps and sets. -/
def Value.encode (digest : List UInt8 → UInt64) : Value → List UInt8
  | .nil => wordBytes 0
  | .bool b => wordBytes 1 ++ [if b then 1 else 0]
  | .integer n => wordBytes 2 ++ wordBytes n.toUInt64
  | .real x => wordBytes 3 ++ wordBytes x.canonicalBits
  | .string s => wordBytes 4 ++ textBytes s
  | .keyword name => wordBytes 5 ++ textBytes name
  | .list _ items => wordBytes 6 ++ Value.encodeItems digest items
  | .vector _ items => wordBytes 7 ++ Value.encodeItems digest items
  | .map _ entries => wordBytes 8 ++ wordBytes (Value.sumEntries digest entries)
  | .set _ items => wordBytes 9 ++ wordBytes (Value.sumItems digest items)
  | .var v => wordBytes 10 ++ wordBytes (UInt64.ofNat v.id)
  | .callable c => wordBytes (if c.isClosure then 11 else 12) ++ wordBytes (UInt64.ofNat c.id)
termination_by structural v => v

def Value.encodeItems (digest : List UInt8 → UInt64) : List Value → List UInt8
  | [] => []
  | v :: rest => v.encode digest ++ Value.encodeItems digest rest
termination_by structural vs => vs

def Value.sumItems (digest : List UInt8 → UInt64) : List Value → UInt64
  | [] => 0
  | v :: rest => digest (v.encode digest) + Value.sumItems digest rest
termination_by structural vs => vs

def Value.sumEntries (digest : List UInt8 → UInt64) : List (Value × Value) → UInt64
  | [] => 0
  | (k, v) :: rest =>
    (digest (k.encode digest) ^^^ SipHash.rotl (digest (v.encode digest)) 1) +
      Value.sumEntries digest rest
termination_by structural es => es

end

/-- The hash over a digest. -/
def Value.hashWith (digest : List UInt8 → UInt64) (v : Value) : UInt64 :=
  digest (v.encode digest)

def Value.hash (v : Value) : UInt64 := v.hashWith SipHash.digest

end ArityDispatch

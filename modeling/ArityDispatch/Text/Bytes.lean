/-!
# Text given as bytes

A byte string denotes a text when it is well-formed UTF-8. A terminated string is read up
to its first zero byte; a text that holds a zero cannot be handed out as one.
-/

namespace ArityDispatch.Text

def ofBytes? (bytes : List UInt8) : Option String :=
  String.fromUTF8? ⟨bytes.toArray⟩

/-- The bytes before the first zero, or all of them. -/
def untilZero (bytes : List UInt8) : List UInt8 :=
  bytes.takeWhile (· ≠ 0)

def ofTerminated? (bytes : List UInt8) : Option String :=
  ofBytes? (untilZero bytes)

def toBytes (s : String) : List UInt8 := s.toUTF8.toList

/-- Whether a text can be handed out with a zero as its end mark. -/
def isTerminable (s : String) : Bool := !s.toList.contains '\x00'

end ArityDispatch.Text

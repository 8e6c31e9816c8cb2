import ArityDispatch.Text.Shown

/-!
# Quoted text

Text is shown between double quotes. Six characters have a two-character escape, a
character that is not shown as itself is written as its code point in hexadecimal between
braces, and every other character stands for itself. The single quote is never escaped.
Neither a double quote nor a backslash is ever written as itself, so a quoted text ends
at its first unescaped double quote.
-/

namespace ArityDispatch.Text

/-- The code point in lower-case hexadecimal, without leading zeros. -/
def hex (n : Nat) : List Char := Nat.toDigits 16 n

/-- One character as it is written between quotes. -/
def escape (c : Char) : List Char :=
  match c with
  | '\x00' => ['\\', '0']
  | '\t' => ['\\', 't']
  | '\n' => ['\\', 'n']
  | '\r' => ['\\', 'r']
  | '"' => ['\\', '"']
  | '\\' => ['\\', '\\']
  | c => if isShown c then [c] else ['\\', 'u', '\x7b'] ++ hex c.toNat ++ ['\x7d']

def quote (s : List Char) : List Char :=
  '"' :: s.flatMap escape ++ ['"']

theorem escape_ne_nil (c : Char) : escape c ≠ [] := by
  unfold escape
  split <;> try simp
  split <;> simp

end ArityDispatch.Text

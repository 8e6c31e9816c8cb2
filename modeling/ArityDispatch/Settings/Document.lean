import ArityDispatch.Settings.Basic

/-!
# Settings documents

A settings file is a TOML document. The settings are three top-level keys whose values are
texts and truth values, and nothing else is accepted in their place. So the documents read
here are lines of assignments, comments and blanks: a table, an array, a dotted key, a
number or a date is refused together with whatever is no TOML at all.

A text is written in one of four ways: between double quotes with escapes, between single
quotes without, or between three of either over several lines. A line ends with a line
feed, before which a carriage return may stand.

`Settings.parse?` is the parser that the program uses. What is loaded by it is checked
afterwards as it would be with any other.
-/

namespace ArityDispatch.Document

inductive Scalar where
  | text (s : String)
  | flag (b : Bool)
deriving DecidableEq, Repr, Inhabited

structure Assignment where
  key : String
  value : Scalar
deriving DecidableEq, Repr, Inhabited

/-! ## Characters -/

def isSpace (c : Char) : Bool := c == ' ' || c == '\t'

/-- The characters of a comment: everything but controls other than the tab. -/
def isPlain (c : Char) : Bool :=
  c == '\t' || (0x20 ≤ c.toNat && c.toNat ≠ 0x7F)

def isBare (c : Char) : Bool := c.isAlphanum || c == '_' || c == '-'

def skipSpace (s : List Char) : List Char := s.dropWhile isSpace

/-- What follows a line end, if one is next. -/
def newline? : List Char → Option (List Char)
  | '\n' :: rest => some rest
  | '\r' :: '\n' :: rest => some rest
  | _ => none

/-- What follows the end of this line: blanks, a comment, and a line end or nothing. -/
def endOfLine? (s : List Char) : Option (List Char) :=
  let rest :=
    match skipSpace s with
    | '#' :: r => r.dropWhile isPlain
    | r => r
  if rest.isEmpty then some [] else newline? rest

/-! ## Escapes -/

def shortEscape? : Char → Option Char
  | 'b' => some '\x08'
  | 't' => some '\t'
  | 'n' => some '\n'
  | 'f' => some '\x0c'
  | 'r' => some '\r'
  | '"' => some '"'
  | '\\' => some '\\'
  | _ => none

def hexDigit? (c : Char) : Option Nat :=
  if '0' ≤ c ∧ c ≤ '9' then some (c.toNat - '0'.toNat)
  else if 'a' ≤ c ∧ c ≤ 'f' then some (c.toNat - 'a'.toNat + 10)
  else if 'A' ≤ c ∧ c ≤ 'F' then some (c.toNat - 'A'.toNat + 10)
  else none

/-- The character with this code point, unless it is a surrogate or out of range. -/
def scalar? (digits : List Char) : Option Char := do
  let n ← digits.foldlM (fun n c => (hexDigit? c).map (16 * n + ·)) 0
  if n.isValidChar then some (Char.ofNat n) else none

/-- What an escape stands for and what follows it, the backslash being read already. -/
def escape? : List Char → Option (Char × List Char)
  | 'u' :: rest =>
    if rest.length < 4 then none else (scalar? (rest.take 4)).map (·, rest.drop 4)
  | 'U' :: rest =>
    if rest.length < 8 then none else (scalar? (rest.take 8)).map (·, rest.drop 8)
  | c :: rest => (shortEscape? c).map (·, rest)
  | [] => none

/-- Skips blanks and up to `n` line ends. -/
def skipLines : Nat → List Char → List Char
  | 0, s => s
  | n + 1, s =>
    match newline? (skipSpace s) with
    | some rest => skipLines n rest
    | none => skipSpace s

/-- What follows an escaped line end: blanks up to it, and all blanks and line ends after
it. -/
def foldedLine? (s : List Char) : Option (List Char) :=
  (newline? (skipSpace s)).map fun rest => skipLines (rest.length + 1) rest

/-! ## Texts -/

/-- How a text of several lines goes on after a run of its own quotes: fewer than three
belong to the text, three close it, and one or two before the closing three belong to the
text again. -/
inductive QuoteRun where
  | inside (count : Nat)
  | closing (count : Nat)

def quoteRun (count : Nat) : QuoteRun :=
  if count < 3 then .inside count else .closing (count - 3)

/-- Puts characters in front of the text of a scan. -/
def prepend (cs : List Char) (scan : Option (List Char × List Char)) :
    Option (List Char × List Char) :=
  scan.map fun r => (cs ++ r.1, r.2)

/-- Reads a text up to its closing quote, the opening quote being read already. Each round
reads at least one character. -/
def line? (quote : Char) (escapes : Bool) : Nat → List Char → Option (List Char × List Char)
  | 0, _ | _, [] => none
  | fuel + 1, c :: rest =>
    if c == quote then some ([], rest)
    else if c == '\\' && escapes then do
      let (e, after) ← escape? rest
      prepend [e] (line? quote escapes fuel after)
    else if isPlain c then prepend [c] (line? quote escapes fuel rest)
    else none

/-- Reads a text of several lines up to its closing quotes. -/
def lines? (quote : Char) (escapes : Bool) : Nat → List Char → Option (List Char × List Char)
  | 0, _ | _, [] => none
  | fuel + 1, c :: rest =>
    if c == quote then
      let run := (c :: rest).takeWhile (· == quote)
      match quoteRun run.length with
      | .inside n =>
        prepend (List.replicate n quote) (lines? quote escapes fuel (rest.drop (n - 1)))
      | .closing n =>
        if n ≤ 2 then some (List.replicate n quote, rest.drop (n + 2)) else none
    else
      match newline? (c :: rest) with
      | some after => prepend ['\n'] (lines? quote escapes fuel after)
      | none =>
        if c == '\\' && escapes then
          match foldedLine? rest with
          | some after => lines? quote escapes fuel after
          | none => do
            let (e, after) ← escape? rest
            prepend [e] (lines? quote escapes fuel after)
        else if isPlain c then prepend [c] (lines? quote escapes fuel rest)
        else none

/-- Reads a text of several lines from after its opening quotes. A line end right after
them does not belong to it. -/
def block? (quote : Char) (escapes : Bool) (s : List Char) : Option (List Char × List Char) :=
  let body := (newline? s).getD s
  lines? quote escapes (body.length + 1) body

def quoted? (quote : Char) (escapes : Bool) (s : List Char) : Option (List Char × List Char) :=
  line? quote escapes (s.length + 1) s

def text? : List Char → Option (List Char × List Char)
  | '"' :: '"' :: '"' :: rest => block? '"' true rest
  | '\'' :: '\'' :: '\'' :: rest => block? '\'' false rest
  | '"' :: rest => quoted? '"' true rest
  | '\'' :: rest => quoted? '\'' false rest
  | _ => none

/-! ## Assignments -/

def key? (s : List Char) : Option (List Char × List Char) :=
  match s with
  | '"' :: rest => quoted? '"' true rest
  | '\'' :: rest => quoted? '\'' false rest
  | s =>
    if (s.takeWhile isBare).isEmpty then none
    else some (s.takeWhile isBare, s.dropWhile isBare)

def value? (s : List Char) : Option (Scalar × List Char) :=
  match s with
  | 't' :: 'r' :: 'u' :: 'e' :: rest => some (.flag true, rest)
  | 'f' :: 'a' :: 'l' :: 's' :: 'e' :: rest => some (.flag false, rest)
  | s => (text? s).map fun r => (.text (String.ofList r.1), r.2)

/-- Reads `key = value`. -/
def assignment? (s : List Char) : Option (Assignment × List Char) := do
  let (key, afterKey) ← key? s
  match skipSpace afterKey with
  | '=' :: rest =>
    let (value, after) ← value? (skipSpace rest)
    some (⟨String.ofList key, value⟩, after)
  | _ => none

/-- Reads the lines of a document. Each round reads a whole line. -/
def assignments? : Nat → List Char → Option (List Assignment)
  | _, [] => some []
  | 0, _ => none
  | fuel + 1, s =>
    match endOfLine? s with
    | some rest => assignments? fuel rest
    | none => do
      let (a, after) ← assignment? (skipSpace s)
      let rest ← endOfLine? after
      (assignments? fuel rest).map (a :: ·)

/-- The assignments of a document in order. A byte order mark in front is skipped. -/
def read? (s : List Char) : Option (List Assignment) :=
  let body :=
    match s with
    | '\ufeff' :: rest => rest
    | s => s
  assignments? (body.length + 1) body

end ArityDispatch.Document

namespace ArityDispatch.Settings

/-- Takes over one assignment, if it is one of the settings. -/
def assign? (s : Settings) (a : Document.Assignment) : Option Settings :=
  match a.key, a.value with
  | "default_namespace", .text ns => some { s with ns }
  | "log_level", .text level => some { s with level }
  | "install_log_subscriber", .flag subscriber => some { s with subscriber }
  | _, _ => none

/-- The settings that a document assigns, the others being as by default. -/
def ofDocument? (assignments : List Document.Assignment) : Option Settings :=
  if (assignments.map Document.Assignment.key).Nodup then
    assignments.foldlM assign? {}
  else none

/-- The settings that a text of this kind stands for. -/
def parse? (document : String) : Option Settings :=
  (Document.read? document.toList).bind ofDocument?

end ArityDispatch.Settings

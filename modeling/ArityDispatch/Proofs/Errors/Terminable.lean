import ArityDispatch.CallError
import ArityDispatch.Proofs.Printing.Digits
import ArityDispatch.Text.Bytes
import ArityDispatch.Value.Basic

/-!
# Texts that can be handed out

A text goes across the boundary with a zero as its end mark, so a text that holds a zero cannot
be handed out. Numbers are written in digits and strings are escaped, so neither brings a zero
into the printed form of a value. Names are written as they are: those of keywords and vars, and
the descriptions of callables. So a value can be handed out as text exactly if its names can, and
an error exactly if the text can that its message is made around.
-/

namespace ArityDispatch

namespace Text

theorem isTerminable_iff {s : String} : isTerminable s = true ↔ '\x00' ∉ s.toList := by
  simp [isTerminable]

theorem zero_not_mem_toDigits {b : Nat} (hb : 1 < b) (n : Nat) : '\x00' ∉ Nat.toDigits b n :=
  not_mem_toDigits hb (fun _ => Nat.digitChar_ne '\x00' rfl) n

/-- No character is escaped with a zero, not even the zero. -/
theorem zero_not_mem_escape (c : Char) : '\x00' ∉ escape c := by
  unfold escape
  split
  case h_7 hzero _ _ _ _ _ =>
    have hc : '\x00' ≠ c := fun heq => hzero heq.symm
    split_ifs
    · simpa using hc
    · simp [hex, zero_not_mem_toDigits]
  all_goals decide

theorem zero_not_mem_quote (s : List Char) : '\x00' ∉ quote s := by
  simp [quote, zero_not_mem_escape]

end Text

/-! ## Values -/

/-- The name in the description of a callable. -/
def Callable.names (c : Callable) : List String :=
  match c.origin with
  | .native description => [description]
  | .closure name => name.toList

mutual

/-- The names that a value is written with. -/
def Value.names : Value → List String
  | .keyword name => [name]
  | .list _ items | .vector _ items | .set _ items => Value.namesItems items
  | .map _ entries => Value.namesEntries entries
  | .var v => [v.ns, v.name]
  | .callable c => c.names
  | .nil | .bool _ | .integer _ | .real _ | .string _ => []
termination_by structural v => v

def Value.namesItems : List Value → List String
  | [] => []
  | v :: rest => v.names ++ Value.namesItems rest
termination_by structural vs => vs

def Value.namesEntries : List (Value × Value) → List String
  | [] => []
  | (k, v) :: rest => k.names ++ v.names ++ Value.namesEntries rest
termination_by structural es => es

end

/-- Some name of these holds a zero. -/
def SomeZero (names : List String) : Prop := ∃ name ∈ names, '\x00' ∈ name.toList

@[simp] theorem someZero_nil : ¬ SomeZero [] := by simp [SomeZero]

@[simp] theorem someZero_cons (name : String) (names : List String) :
    SomeZero (name :: names) ↔ '\x00' ∈ name.toList ∨ SomeZero names := by
  simp [SomeZero]

@[simp] theorem someZero_append (names names' : List String) :
    SomeZero (names ++ names') ↔ SomeZero names ∨ SomeZero names' := by
  simp [SomeZero, or_and_right, exists_or]

theorem Callable.zero_mem_describe_iff (c : Callable) :
    '\x00' ∈ c.describe.toList ↔ SomeZero c.names := by
  obtain ⟨id, arity, origin⟩ := c
  rcases origin with description | (_ | name)
  · simp [describe, names]
  · simp [describe, names, String.toList_append, Text.hex, Text.zero_not_mem_toDigits]
  · simp [describe, names, String.toList_append]

theorem Binary64.zero_not_mem_spell (x : Binary64) : '\x00' ∉ x.spell := by
  have hdigits : ∀ n, '\x00' ∉ Decimal.digits n := Text.zero_not_mem_toDigits (by decide)
  have hmagnitude : '\x00' ∉ x.magnitude := by
    unfold magnitude
    split_ifs
    · simp [hdigits]
    · simp [Decimal.positional, hdigits]
  unfold spell
  split_ifs <;> simp [hmagnitude]

theorem Value.zero_not_mem_integer (n : Int) : '\x00' ∉ (toString n).toList := by
  cases n with
  | ofNat m =>
    rw [Text.toList_toString_ofNat]
    exact Text.zero_not_mem_toDigits (by decide) m
  | negSucc m =>
    rw [Text.toList_toString_negSucc]
    simp [Text.zero_not_mem_toDigits]

mutual

theorem Value.zero_mem_spell_iff (v : Value) : '\x00' ∈ v.spell ↔ SomeZero v.names := by
  cases v with
  | nil => simp [spell, names]
  | bool b => cases b <;> simp +decide [names]
  | integer n => simpa [spell, names] using zero_not_mem_integer n.toInt
  | real x => simpa [spell, names] using x.zero_not_mem_spell
  | string s => simpa [spell, names] using Text.zero_not_mem_quote s.toList
  | keyword name => simp [spell, names]
  | list id items => simpa [spell, names] using Value.zero_mem_spellItems_iff items
  | vector id items => simpa [spell, names] using Value.zero_mem_spellItems_iff items
  | map id entries => simpa [spell, names] using Value.zero_mem_spellEntries_iff entries
  | set id items => simpa [spell, names] using Value.zero_mem_spellItems_iff items
  | var x => simp [spell, names, Var.text, Var.qualified, String.toList_append]
  | callable c => simpa [spell, names] using c.zero_mem_describe_iff
termination_by structural v

theorem Value.zero_mem_spellItems_iff (vs : List Value) :
    '\x00' ∈ Value.spellItems vs ↔ SomeZero (Value.namesItems vs) := by
  match vs with
  | [] => simp [spellItems, namesItems]
  | [v] => simpa [spellItems, namesItems] using Value.zero_mem_spell_iff v
  | v :: w :: rest =>
    have hv := Value.zero_mem_spell_iff v
    have hrest := Value.zero_mem_spellItems_iff (w :: rest)
    have hspell : spellItems (v :: w :: rest) = v.spell ++ ' ' :: spellItems (w :: rest) := rfl
    have hnames : namesItems (v :: w :: rest) = v.names ++ namesItems (w :: rest) := rfl
    simp [hspell, hnames, hv, hrest]
termination_by structural vs

theorem Value.zero_mem_spellEntries_iff (es : List (Value × Value)) :
    '\x00' ∈ Value.spellEntries es ↔ SomeZero (Value.namesEntries es) := by
  match es with
  | [] => simp [spellEntries, namesEntries]
  | [(k, v)] =>
    have hk := Value.zero_mem_spell_iff k
    have hv := Value.zero_mem_spell_iff v
    simp [spellEntries, namesEntries, hk, hv]
  | (k, v) :: e :: rest =>
    have hk := Value.zero_mem_spell_iff k
    have hv := Value.zero_mem_spell_iff v
    have hrest := Value.zero_mem_spellEntries_iff (e :: rest)
    have hspell : spellEntries ((k, v) :: e :: rest) =
        k.spell ++ ' ' :: v.spell ++ ',' :: ' ' :: spellEntries (e :: rest) := rfl
    have hnames : namesEntries ((k, v) :: e :: rest) =
        k.names ++ v.names ++ namesEntries (e :: rest) := rfl
    simp [hspell, hnames, hk, hv, hrest]
termination_by structural es

end

/-- Strings and numbers never spoil the text of a value, only names do. -/
theorem Value.isTerminable_text_iff (v : Value) :
    Text.isTerminable v.text = true ↔ ∀ name ∈ v.names, Text.isTerminable name = true := by
  simp only [Text.isTerminable_iff, text, String.toList_ofList, v.zero_mem_spell_iff, SomeZero,
    not_exists, not_and]

/-! ## Errors -/

/-- The text that the message of an error is made around. -/
def CallError.subject : CallError → String
  | invalidArity _ callee | unsupportedArity _ callee | nativeFailure _ callee => callee
  | unboundVar name => name
  | notSeqable shown | notAVar shown => shown
  | nullPointer parameter => parameter
  | arityOutOfRange _ | ambiguousWithoutVariadic | entryAlreadySet _ | invalidEntrySlot _
  | invalidUtf8 => ""

theorem CallError.zero_mem_message_iff (e : CallError) :
    '\x00' ∈ e.message.toList ↔ '\x00' ∈ e.subject.toList := by
  unfold message subject
  cases e <;> simp [Text.zero_not_mem_toDigits]

theorem CallError.isTerminable_message (e : CallError) :
    Text.isTerminable e.message = Text.isTerminable e.subject := by
  rw [Bool.eq_iff_iff, Text.isTerminable_iff, Text.isTerminable_iff, e.zero_mem_message_iff]

end ArityDispatch

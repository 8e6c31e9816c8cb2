import ArityDispatch.Proofs.Printing.Digits
import ArityDispatch.Settings.Basic
import Mathlib

/-!
# The grammar of log levels

A level is written between blanks. Its number is one digit from 1 to 5, with any number of
zeros and at most one plus sign in front of it; its name may have capitals anywhere. Nothing
else is a level. A number is read digit by digit, and reading stops where it leaves the 64
bits. That never matters for a level: zeros in front keep the number at zero, and after the
first other digit one more digit makes it ten or more.
-/

namespace ArityDispatch

/-! ## Blanks -/

namespace Text

/-- What stands between the blanks at both ends of a text. -/
structure Trimmed (s core : List Char) : Prop where
  around : ∃ before after, s = before ++ (core ++ after) ∧
    (∀ c ∈ before, isBlank c = true) ∧ ∀ c ∈ after, isBlank c = true
  first : ∀ c ∈ core.head?, isBlank c = false
  last : ∀ c ∈ core.getLast?, isBlank c = false

theorem head_dropWhile {p : Char → Bool} {s : List Char} :
    ∀ c ∈ (s.dropWhile p).head?, p c = false := by
  intro c hc
  have h := List.head?_dropWhile_not p s
  rwa [hc] at h

theorem trimmed_trim (s : List Char) : Trimmed s (trim s) := by
  let rest := s.dropWhile isBlank
  let after := (rest.reverse.takeWhile isBlank).reverse
  have hrest : rest = trim s ++ after := by
    rw [trim, ← List.reverse_append, List.takeWhile_append_dropWhile, List.reverse_reverse]
  constructor
  · refine ⟨s.takeWhile isBlank, after, ?_, fun c => List.mem_takeWhile_imp, ?_⟩
    · rw [← hrest, List.takeWhile_append_dropWhile]
    · exact fun c hc => List.mem_takeWhile_imp (List.mem_reverse.mp hc)
  · intro c hc
    have hmem : c ∈ rest.head? := by
      rw [hrest, List.head?_append, hc]
      rfl
    exact head_dropWhile c hmem
  · intro c hc
    rw [trim, List.getLast?_reverse] at hc
    exact head_dropWhile c hc

theorem Trimmed.eq_trim {s core : List Char} (h : Trimmed s core) : core = trim s := by
  obtain ⟨before, after, hs, hbefore, hafter⟩ := h.around
  have hright : ((core ++ after).reverse.dropWhile isBlank).reverse = core := by
    rw [List.reverse_append, dropWhile_append_of_head, List.reverse_reverse]
    · exact fun c hc => hafter c (List.mem_reverse.mp hc)
    · rw [List.head?_reverse]
      exact h.last
  cases core with
  | nil =>
    have hall : ∀ c ∈ s, isBlank c = true := by
      rw [hs]
      exact List.forall_mem_append.mpr ⟨hbefore, hafter⟩
    rw [trim, List.dropWhile_eq_nil_iff.mpr hall]
    rfl
  | cons c core =>
    have hleft : s.dropWhile isBlank = c :: core ++ after := by
      rw [hs]
      exact dropWhile_append_of_head hbefore fun d hd => h.first d hd
    rw [trim, hleft, hright]

theorem trimmed_iff {s core : List Char} : Trimmed s core ↔ core = trim s := by
  constructor
  · exact Trimmed.eq_trim
  · rintro rfl
    exact trimmed_trim s

end Text

/-! ## Numbers -/

namespace Level

/-- The digit of a level. -/
def digit : Level → Char
  | error => '1'
  | warn => '2'
  | info => '3'
  | debug => '4'
  | trace => '5'

/-- The ways to write a level. -/
inductive Written (l : Level) : List Char → Prop
  | number (sign : List Char) (zeros : Nat) : sign = [] ∨ sign = ['+'] →
      Written l (sign ++ (List.replicate zeros '0' ++ [l.digit]))
  | name {s : List Char} : List.Forall₂ (fun c d => c = d ∨ c = d.toUpper) s l.name.toList →
      Written l s

theorem ofNumber?_eq_some_iff {n : Nat} {l : Level} : ofNumber? n = some l ↔ n = l.number := by
  constructor
  · intro h
    have hfound := List.find?_some (p := fun l : Level => decide (l.number = n)) h
    exact (of_decide_eq_true hfound).symm
  · rintro rfl
    cases l <;> rfl

theorem toNat_digit (l : Level) : l.digit.toNat = l.number + 48 := by
  cases l <;> rfl

theorem number_bounds (l : Level) : 0 < l.number ∧ l.number < 10 := by
  cases l <;> decide

theorem appendDigit?_eq_some_iff {n m : Nat} {c : Char} : appendDigit? n c = some m ↔
    (48 ≤ c.toNat ∧ c.toNat ≤ 57) ∧ m = 10 * n + (c.toNat - 48) ∧ m < UInt64.size := by
  have hzero : '0'.toNat = 48 := rfl
  simp only [appendDigit?, hzero, Char.isDigit_iff_toNat]
  split_ifs with h
  · grind
  · grind

/-- The first digit is the number. -/
theorem appendDigit?_zero_eq_some_iff {m : Nat} {c : Char} :
    appendDigit? 0 c = some m ↔ m < 10 ∧ c.toNat = m + 48 := by
  have hsize : 10 < UInt64.size := by decide
  rw [appendDigit?_eq_some_iff]
  omega

/-- Digits only make a number larger. -/
theorem le_of_foldlM {s : List Char} {n m : Nat} (h : s.foldlM appendDigit? n = some m) :
    n ≤ m := by
  induction s generalizing n with
  | nil => exact (Option.some.inj h).le
  | cons c s ih =>
    obtain ⟨k, hk, hs⟩ := Option.bind_eq_some_iff.mp h
    have hn := (appendDigit?_eq_some_iff.mp hk).2.1
    have hle := ih hs
    omega

/-- After a digit other than zero one more makes ten or more. -/
theorem nil_of_foldlM {s : List Char} {n m : Nat} (h : s.foldlM appendDigit? n = some m)
    (hn : n ≠ 0) (hlt : m < 10) : s = [] := by
  cases s with
  | nil => rfl
  | cons c s =>
    obtain ⟨k, hk, hs⟩ := Option.bind_eq_some_iff.mp h
    have hten := (appendDigit?_eq_some_iff.mp hk).2.1
    have hle := le_of_foldlM hs
    omega

/-- A number of one digit is written with zeros in front of that digit, as many as one likes. -/
theorem foldlM_eq_some_iff {s : List Char} {m : Nat} (hpos : 0 < m) (hlt : m < 10) :
    s.foldlM appendDigit? 0 = some m ↔
      ∃ zeros c, s = List.replicate zeros '0' ++ [c] ∧ c.toNat = m + 48 := by
  induction s with
  | nil =>
    constructor
    · intro h
      have hm := Option.some.inj h
      omega
    · rintro ⟨zeros, c, h, -⟩
      simp at h
  | cons c s ih =>
    rw [List.foldlM_cons, Option.bind_eq_bind, Option.bind_eq_some_iff]
    constructor
    · rintro ⟨k, hk, hs⟩
      obtain ⟨-, hc⟩ := appendDigit?_zero_eq_some_iff.mp hk
      -- behind a zero the number starts again, and any other digit must be the last one
      by_cases hzero : k = 0
      · subst hzero
        obtain rfl : c = '0' := Char.toNat_inj.mp hc
        obtain ⟨zeros, d, rfl, hm⟩ := ih.mp hs
        exact ⟨zeros + 1, d, rfl, hm⟩
      · obtain rfl := nil_of_foldlM hs hzero hlt
        obtain rfl := Option.some.inj hs
        exact ⟨0, c, rfl, hc⟩
    · rintro ⟨zeros, d, h, hd⟩
      cases zeros with
      | zero =>
        obtain ⟨rfl, rfl⟩ := List.cons.inj h
        exact ⟨m, appendDigit?_zero_eq_some_iff.mpr ⟨hlt, hd⟩, rfl⟩
      | succ zeros =>
        obtain ⟨rfl, rfl⟩ := List.cons.inj h
        exact ⟨0, rfl, ih.mpr ⟨zeros, d, rfl, hd⟩⟩

theorem natOfDigits?_eq_some_iff {s : List Char} {m : Nat} (hpos : 0 < m) (hlt : m < 10) :
    natOfDigits? s = some m ↔
      ∃ zeros c, s = List.replicate zeros '0' ++ [c] ∧ c.toNat = m + 48 := by
  rw [← foldlM_eq_some_iff hpos hlt, natOfDigits?]
  cases s with
  | nil =>
    have hne : (0 : Nat) ≠ m := hpos.ne
    simp [hne]
  | cons c s => rfl

theorem natOfLiteral?_eq_some_iff {s : List Char} {m : Nat} (hpos : 0 < m) (hlt : m < 10) :
    natOfLiteral? s = some m ↔ ∃ sign zeros c, (sign = [] ∨ sign = ['+']) ∧
      s = sign ++ (List.replicate zeros '0' ++ [c]) ∧ c.toNat = m + 48 := by
  have hdigits := fun s => natOfDigits?_eq_some_iff (s := s) hpos hlt
  unfold natOfLiteral?
  split
  · next digits =>
    rw [hdigits]
    constructor
    · rintro ⟨zeros, c, h, hc⟩
      exact ⟨['+'], zeros, c, .inr rfl, by rw [h]; rfl, hc⟩
    · rintro ⟨sign, zeros, c, rfl | rfl, h, hc⟩
      · -- neither a zero nor the digit is a plus sign
        cases zeros with
        | zero =>
          obtain ⟨rfl, -⟩ := List.cons.inj h
          have hplus : '+'.toNat = 43 := rfl
          omega
        | succ zeros => cases (List.cons.inj h).1
      · exact ⟨zeros, c, (List.cons.inj h).2, hc⟩
  · next hplus =>
    rw [hdigits]
    constructor
    · rintro ⟨zeros, c, h, hc⟩
      exact ⟨[], zeros, c, .inl rfl, h, hc⟩
    · rintro ⟨sign, zeros, c, rfl | rfl, h, hc⟩
      · exact ⟨zeros, c, h, hc⟩
      · exact absurd h (hplus _)

theorem numbered_iff {s : List Char} {l : Level} : (natOfLiteral? s).bind ofNumber? = some l ↔
    ∃ sign zeros, (sign = [] ∨ sign = ['+']) ∧
      s = sign ++ (List.replicate zeros '0' ++ [l.digit]) := by
  obtain ⟨hpos, hlt⟩ := l.number_bounds
  simp only [Option.bind_eq_some_iff, ofNumber?_eq_some_iff, exists_eq_right,
    natOfLiteral?_eq_some_iff hpos hlt, ← toNat_digit, Char.toNat_inj]
  constructor
  · rintro ⟨sign, zeros, c, hsign, h, rfl⟩
    exact ⟨sign, zeros, hsign, h⟩
  · rintro ⟨sign, zeros, hsign, h⟩
    exact ⟨sign, zeros, l.digit, hsign, h, rfl⟩

/-! ## Names -/

theorem toLower_eq_iff {c d : Char} (hd : d.isLower = true) :
    c.toLower = d ↔ c = d ∨ c = d.toUpper := by
  have hlower := Char.toLower_eq_of_not_isUpper (Char.not_isUpper_of_isLower hd)
  constructor
  · rintro rfl
    rw [Char.toUpper_toLower_eq_toUpper]
    by_cases hc : c.isUpper
    · exact .inr (Char.toUpper_eq_of_not_isLower (Char.not_isLower_of_isUpper hc)).symm
    · exact .inl (Char.toLower_eq_of_not_isUpper hc).symm
  · rintro (rfl | rfl)
    · exact hlower
    · rw [Char.toLower_toUpper_eq_toLower, hlower]

theorem map_toLower_eq_iff {s t : List Char} (ht : ∀ d ∈ t, d.isLower = true) :
    s.map Char.toLower = t ↔ List.Forall₂ (fun c d => c = d ∨ c = d.toUpper) s t := by
  induction t generalizing s with
  | nil => simp
  | cons d t ih =>
    obtain ⟨hd, ht⟩ := List.forall_mem_cons.mp ht
    cases s with
    | nil => simp
    | cons c s => rw [List.map_cons, List.cons.injEq, List.forall₂_cons, toLower_eq_iff hd, ih ht]

theorem isLower_of_mem_name (l : Level) : ∀ d ∈ l.name.toList, d.isLower = true :=
  List.all_eq_true.mp (by cases l <;> rfl)

theorem ofName?_eq_some_iff {s : List Char} {l : Level} : ofName? s = some l ↔
    List.Forall₂ (fun c d => c = d ∨ c = d.toUpper) s l.name.toList := by
  rw [← map_toLower_eq_iff l.isLower_of_mem_name]
  constructor
  · intro h
    have hfound := List.find?_some
      (p := fun l : Level => decide (s.map Char.toLower = l.name.toList)) h
    exact of_decide_eq_true hfound
  · intro h
    simp only [ofName?, h]
    cases l <;> rfl

/-- No digit of a level stands in a name. -/
theorem digit_not_mem_of_name {s : List Char} {l : Level}
    (h : List.Forall₂ (fun c d => c = d ∨ c = d.toUpper) s l.name.toList) (k : Level) :
    k.digit ∉ s := by
  intro hmem
  have hlower : k.digit.toLower ∈ l.name.toList := by
    rw [← (map_toLower_eq_iff l.isLower_of_mem_name).mpr h]
    exact List.mem_map_of_mem hmem
  have hletter := l.isLower_of_mem_name _ hlower
  cases k <;> exact absurd hletter (by decide)

/-! ## The grammar -/

theorem ofText?_eq_some_iff {s : List Char} {l : Level} :
    ofText? s = some l ↔ Written l (Text.trim s) := by
  rw [ofText?, Option.or_eq_some_iff, numbered_iff, ofName?_eq_some_iff]
  constructor
  · rintro (⟨sign, zeros, hsign, h⟩ | ⟨-, h⟩)
    · rw [h]
      exact .number sign zeros hsign
    · exact .name h
  · intro h
    generalize Text.trim s = core at h
    cases h with
    | number sign zeros hsign => exact .inl ⟨sign, zeros, hsign, rfl⟩
    | name h =>
      refine .inr ⟨Option.eq_none_iff_forall_ne_some.mpr fun k hk => ?_, h⟩
      obtain ⟨sign, zeros, -, rfl⟩ := numbered_iff.mp hk
      exact digit_not_mem_of_name h k (by simp)

end Level

/-- The level of settings is the one that their text writes down between blanks, and if there is
none the settings are refused with the text as it is. -/
theorem level_iff_written (s : Settings) :
    (∀ l, s.level? = .ok l ↔
      ∃ core, Text.Trimmed s.level.toList core ∧ Level.Written l core) ∧
    ∀ e, s.level? = .error e ↔ e = .unknownLevel s.level ∧
      ∀ l core, Text.Trimmed s.level.toList core → ¬ Level.Written l core := by
  have hwritten : ∀ l, (∃ core, Text.Trimmed s.level.toList core ∧ Level.Written l core) ↔
      Level.ofText? s.level.toList = some l := by
    intro l
    simp only [Text.trimmed_iff, exists_eq_left, Level.ofText?_eq_some_iff]
  have hnone : (∀ l core, Text.Trimmed s.level.toList core → ¬ Level.Written l core) ↔
      Level.ofText? s.level.toList = none := by
    simp only [Text.trimmed_iff, forall_eq, ← Level.ofText?_eq_some_iff,
      Option.eq_none_iff_forall_ne_some, ne_eq]
  simp only [hwritten, hnone, Settings.level?]
  cases Level.ofText? s.level.toList with
  | none => simp [eq_comm]
  | some l => simp

/-- A number that would be 3 if it started again behind the 64 bits. -/
example : Level.ofText? "18446744073709551619".toList = none := by decide

end ArityDispatch

import Mathlib.Data.List.Basic

/-!
# Numbers and runs of characters

A number is written in digits, and different numbers in different ones. In a text it ends where
the digits do. A minus sign goes before a number below zero.
-/

namespace ArityDispatch.Text

/-! ## Runs -/

section
variable {p : Char → Bool} {l l' r r' : List Char}

/-- A run of such characters ends at the first other one. -/
theorem dropWhile_append_of_head (hl : ∀ c ∈ l, p c = true) (hr : ∀ c ∈ r.head?, p c = false) :
    (l ++ r).dropWhile p = r := by
  rw [List.dropWhile_append_of_pos hl]
  cases r with
  | nil => rfl
  | cons c r => rw [List.dropWhile_cons_of_neg (by simp [hr c rfl])]

/-- Two runs of such characters, with nothing or another character behind each. -/
theorem run_append_inj (hl : ∀ c ∈ l, p c = true) (hl' : ∀ c ∈ l', p c = true)
    (hr : ∀ c ∈ r.head?, p c = false) (hr' : ∀ c ∈ r'.head?, p c = false)
    (h : l ++ r = l' ++ r') : l = l' ∧ r = r' := by
  have hrest : r = r' := by
    rw [← dropWhile_append_of_head hl hr, h, dropWhile_append_of_head hl' hr']
  subst hrest
  exact ⟨List.append_cancel_right h, rfl⟩

end

/-! ## Digits -/

/-- A number is written in digits only. -/
theorem not_mem_toDigits {b : Nat} {c : Char} (hb : 1 < b) (hc : ∀ k, Nat.digitChar k ≠ c)
    (n : Nat) : c ∉ Nat.toDigits b n := by
  induction n using Nat.strongRecOn with
  | ind n ih =>
    rw [Nat.toDigits_eq_if hb]
    split_ifs with h
    · simp [(hc n).symm]
    · have hpos : 0 < n := by omega
      simpa [(hc (n % b)).symm] using ih (n / b) (Nat.div_lt_self hpos hb)

theorem digitChar_inj {m n : Nat} (hm : m < 16) (hn : n < 16)
    (h : Nat.digitChar m = Nat.digitChar n) : m = n := by
  have hdigits : ∀ m n : Fin 16, Nat.digitChar m = Nat.digitChar n → m = n := by decide
  exact congrArg Fin.val (hdigits ⟨m, hm⟩ ⟨n, hn⟩ h)

theorem toDigits_inj {b : Nat} (hb : 1 < b) (hb16 : b ≤ 16) {m n : Nat}
    (h : Nat.toDigits b m = Nat.toDigits b n) : m = n := by
  induction m using Nat.strongRecOn generalizing n with
  | ind m ih =>
    rw [Nat.toDigits_eq_if hb, Nat.toDigits_eq_if (n := n) hb] at h
    split_ifs at h with hm hn hn
    · exact digitChar_inj (by omega) (by omega) (List.cons.inj h).1
    · have hlength := congrArg List.length h
      simp [Nat.toDigits_ne_nil] at hlength
    · have hlength := congrArg List.length h
      simp [Nat.toDigits_ne_nil] at hlength
    · obtain ⟨hdiv, hmod⟩ := List.append_inj' h rfl
      have hquotient : m / b = n / b := ih (m / b) (Nat.div_lt_self (by omega) hb) hdiv
      have hm' : m % b < b := Nat.mod_lt m (by omega)
      have hn' : n % b < b := Nat.mod_lt n (by omega)
      have hlast : m % b = n % b := digitChar_inj (by omega) (by omega) (List.cons.inj hmod).1
      rw [← Nat.div_add_mod m b, ← Nat.div_add_mod n b, hquotient, hlast]

theorem isDigit_of_mem_toDigits {n : Nat} : ∀ c ∈ Nat.toDigits 10 n, c.isDigit = true :=
  fun _ => Nat.isDigit_of_mem_toDigits (by decide) (by decide)

theorem toDigits_cons (n : Nat) : ∃ c t, Nat.toDigits 10 n = c :: t ∧ c.isDigit = true := by
  have hne : Nat.toDigits 10 n ≠ [] := Nat.toDigits_ne_nil
  obtain ⟨c, t, hc⟩ := List.exists_cons_of_ne_nil hne
  exact ⟨c, t, hc, isDigit_of_mem_toDigits (n := n) c (by simp [hc])⟩

/-! ## Integers -/

theorem toList_toString_ofNat (m : Nat) : (toString (Int.ofNat m)).toList = Nat.toDigits 10 m :=
  String.toList_ofList

theorem toList_toString_negSucc (m : Nat) :
    (toString (Int.negSucc m)).toList = '-' :: Nat.toDigits 10 (m + 1) := by
  have hsign : toString (Int.negSucc m) = "-" ++ toString (m + 1) := rfl
  simp [hsign, String.toList_append]

/-- No digit comes next. -/
def Ends (r : List Char) : Prop := ∀ c ∈ r.head?, c.isDigit = false

@[simp] theorem ends_nil : Ends [] := by simp [Ends]

@[simp] theorem ends_cons {c : Char} {r : List Char} : Ends (c :: r) ↔ c.isDigit = false := by
  simp [Ends]

section
variable {r s : List Char}

theorem toDigits_append_inj {m n : Nat} (hr : Ends r) (hs : Ends s)
    (h : Nat.toDigits 10 m ++ r = Nat.toDigits 10 n ++ s) : m = n ∧ r = s := by
  obtain ⟨hsame, hrest⟩ :=
    run_append_inj isDigit_of_mem_toDigits isDigit_of_mem_toDigits hr hs h
  exact ⟨toDigits_inj (by decide) (by decide) hsame, hrest⟩

theorem toDigits_append_ne_minus {m : Nat} : Nat.toDigits 10 m ++ r ≠ '-' :: s := by
  intro h
  obtain ⟨c, t, hc, hdigit⟩ := toDigits_cons m
  rw [hc, List.cons_append] at h
  rw [(List.cons.inj h).1] at hdigit
  cases hdigit

theorem toString_append_inj {m n : Int} (hr : Ends r) (hs : Ends s)
    (h : (toString m).toList ++ r = (toString n).toList ++ s) : m = n ∧ r = s := by
  cases m with
  | ofNat m =>
    rw [toList_toString_ofNat] at h
    cases n with
    | ofNat n =>
      rw [toList_toString_ofNat] at h
      obtain ⟨rfl, hrest⟩ := toDigits_append_inj hr hs h
      exact ⟨rfl, hrest⟩
    | negSucc n =>
      rw [toList_toString_negSucc] at h
      exact absurd h toDigits_append_ne_minus
  | negSucc m =>
    rw [toList_toString_negSucc] at h
    cases n with
    | ofNat n =>
      rw [toList_toString_ofNat] at h
      exact absurd h.symm toDigits_append_ne_minus
    | negSucc n =>
      rw [toList_toString_negSucc] at h
      obtain ⟨hsame, hrest⟩ := toDigits_append_inj hr hs (List.cons.inj h).2
      exact ⟨congrArg Int.negSucc (Nat.succ.inj hsame), hrest⟩

end

end ArityDispatch.Text

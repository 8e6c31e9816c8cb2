import ArityDispatch.Proofs.Printing.Digits
import ArityDispatch.Text.Quoted

/-!
# What a quoted text says

Between quotes a character stands for itself, or a backslash begins what stands for it: one more
character, or its number between braces. Neither the quote nor the backslash ever stands for
itself. Which characters are escaped, and in which of the ways, may differ from one text to the
next, and from one place in a text to another. Still the text can be read back, and it is clear
where it ends: at a quote with no backslash before it.
-/

namespace ArityDispatch.Text

/-! ## Characters -/

/-- What may stand behind a backslash, and for which character. -/
def shortEscapes : List (Char × Char) :=
  [('t', '\t'), ('n', '\n'), ('r', '\r'), ('0', '\x00'), ('"', '"'), ('\\', '\\')]

/-- The ways to write a character between quotes. -/
inductive Written (c : Char) : List Char → Prop
  | itself : c ≠ '"' → c ≠ '\\' → Written c [c]
  | short {mark : Char} : (mark, c) ∈ shortEscapes → Written c ['\\', mark]
  | number : Written c ('\\' :: 'u' :: '\x7b' :: (hex c.toNat ++ ['\x7d']))

/-- The ways to write a text between quotes. -/
inductive Escaped : List Char → List Char → Prop
  | nil : Escaped [] []
  | cons {c : Char} {s w t : List Char} : Written c w → Escaped s t → Escaped (c :: s) (w ++ t)

/-- Texts are quoted in one of these ways. -/
def Quotes (quote : List Char → List Char) : Prop :=
  ∀ s, ∃ body, Escaped s body ∧ quote s = '"' :: body ++ ['"']

variable {c d : Char} {s s' t t' w w' r r' : List Char}

theorem shortEscapes_inj {mark : Char} (h : (mark, c) ∈ shortEscapes)
    (h' : (mark, d) ∈ shortEscapes) : c = d := by
  have hmarks : ∀ e ∈ shortEscapes, ∀ f ∈ shortEscapes, e.1 = f.1 → e.2 = f.2 := by decide
  exact hmarks _ h _ h' rfl

theorem u_not_short : ('u', c) ∉ shortEscapes := by
  simp [shortEscapes]

theorem hex_append_inj {m n : Nat} (h : hex m ++ '\x7d' :: r = hex n ++ '\x7d' :: r') :
    m = n ∧ r = r' := by
  have hbrace : ∀ k, ∀ e ∈ hex k, (e != '\x7d') = true := by
    intro k e he
    have hnot := not_mem_toDigits (b := 16) (by decide) (fun _ => Nat.digitChar_ne '\x7d' rfl) k
    exact bne_iff_ne.mpr fun heq => hnot (heq ▸ he)
  obtain ⟨hdigits, hrest⟩ := run_append_inj (hbrace m) (hbrace n) (by simp) (by simp) h
  exact ⟨toDigits_inj (by decide) (by decide) hdigits, (List.cons.inj hrest).2⟩

/-- What is written says which character it is, and where it ends. -/
theorem Written.append_inj (h : Written c w) (h' : Written d w') (heq : w ++ r = w' ++ r') :
    c = d ∧ r = r' := by
  cases h with
  | itself _ hc =>
    cases h' with
    | itself _ _ => exact List.cons.inj heq
    | short _ => exact absurd (List.cons.inj heq).1 hc
    | number => exact absurd (List.cons.inj heq).1 hc
  | short hmark =>
    cases h' with
    | itself _ hd => exact absurd (List.cons.inj heq).1.symm hd
    | short hmark' =>
      obtain ⟨rfl, hrest⟩ := List.cons.inj (List.cons.inj heq).2
      exact ⟨shortEscapes_inj hmark hmark', hrest⟩
    | number =>
      obtain ⟨rfl, -⟩ := List.cons.inj (List.cons.inj heq).2
      exact absurd hmark u_not_short
  | number =>
    cases h' with
    | itself _ hd => exact absurd (List.cons.inj heq).1.symm hd
    | short hmark' =>
      obtain ⟨rfl, -⟩ := List.cons.inj (List.cons.inj heq).2
      exact absurd hmark' u_not_short
    | number =>
      have hdigits : hex c.toNat ++ '\x7d' :: r = hex d.toNat ++ '\x7d' :: r' := by
        simpa using heq
      obtain ⟨hnumber, hrest⟩ := hex_append_inj hdigits
      exact ⟨Char.toNat_inj.mp hnumber, hrest⟩

/-- No character is written with a quote in front. -/
theorem Written.append_ne_quote (h : Written c w) : w ++ r ≠ '"' :: r' := by
  intro heq
  cases h with
  | itself hc _ => exact hc (List.cons.inj heq).1
  | short _ => cases (List.cons.inj heq).1
  | number => cases (List.cons.inj heq).1

/-! ## Texts -/

/-- What is written up to the closing quote says which text it is. -/
theorem Escaped.append_inj (h : Escaped s t) (h' : Escaped s' t')
    (heq : t ++ '"' :: r = t' ++ '"' :: r') : s = s' ∧ r = r' := by
  induction h generalizing s' t' with
  | nil =>
    cases h' with
    | nil => exact ⟨rfl, (List.cons.inj heq).2⟩
    | cons hw _ =>
      rw [List.append_assoc] at heq
      exact absurd heq.symm hw.append_ne_quote
  | cons hw _ ih =>
    cases h' with
    | nil =>
      rw [List.append_assoc] at heq
      exact absurd heq hw.append_ne_quote
    | cons hw' htail =>
      rw [List.append_assoc, List.append_assoc] at heq
      obtain ⟨rfl, hafter⟩ := hw.append_inj hw' heq
      obtain ⟨rfl, hrest⟩ := ih htail hafter
      exact ⟨rfl, hrest⟩

theorem Quotes.append_inj {quote : List Char → List Char} (hquote : Quotes quote)
    (heq : quote s ++ r = quote s' ++ r') : s = s' ∧ r = r' := by
  obtain ⟨t, ht, hs⟩ := hquote s
  obtain ⟨t', ht', hs'⟩ := hquote s'
  have hbody : t ++ '"' :: r = t' ++ '"' :: r' := by
    simpa [hs, hs'] using heq
  exact ht.append_inj ht' hbody

theorem written_escape (c : Char) : Written c (escape c) := by
  unfold escape
  split
  case h_7 hquote hslash =>
    split_ifs
    · exact .itself hquote hslash
    · exact .number
  all_goals exact .short (by decide)

theorem escaped_flatMap_escape (s : List Char) : Escaped s (s.flatMap escape) := by
  induction s with
  | nil => exact .nil
  | cons c s ih => exact .cons (written_escape c) ih

theorem quotes_quote : Quotes quote := fun s => ⟨s.flatMap escape, escaped_flatMap_escape s, rfl⟩

end ArityDispatch.Text

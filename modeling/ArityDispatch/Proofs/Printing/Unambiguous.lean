import ArityDispatch.Proofs.Printing.Quoting
import ArityDispatch.Proofs.Printing.Shapes

/-!
# The printed form of plain data

Plain data is built from nil, truth values, integers, strings and collections only. Its printed
form shows everything but the identities of the collections, and nothing in it can be read in two
ways. The first character tells the kind, and the kind tells where the form ends: at a closing
bracket, at the quote that closes a string, or where the digits stop. Digits stop in time because
what follows a value inside a collection is a blank, a comma or a closing bracket. No value begins
with a closing bracket, so an empty collection is no other.

This needs nothing of the quoting of strings but that it is one of those which can be read back.
-/

namespace ArityDispatch

/-! ## Reading back a sequence -/

namespace Text

/-- What is written for the first is written for the second only if they look alike, and both end
in the same place, unless a digit comes next. -/
def Legible {α β : Type} (write : α → List Char) (look : α → β) (x y : α) : Prop :=
  ∀ r s, Ends r → Ends s → write x ++ r = write y ++ s → look x = look y ∧ r = s

section
variable {α β : Type} {write : α → List Char} {look : α → β} {d close : Char}
  {sep r s : List Char} {xs ys : List α}

theorem intercalate_cons_eq (l : List Char) (ls : List (List Char)) :
    sep.intercalate (l :: ls) = l ++ ls.flatMap (sep ++ ·) := by
  induction ls generalizing l with
  | nil => simp
  | cons l' ls ih => rw [List.intercalate_cons_cons, ih, List.flatMap_cons, List.append_assoc,
      List.append_assoc]

/-- What is left of a collection does not begin with a digit. -/
theorem ends_rest (hd : d.isDigit = false) (hclose : close.isDigit = false) :
    Ends ((xs.map write).flatMap (d :: sep ++ ·) ++ close :: r) := by
  cases xs with
  | nil => simp [hclose]
  | cons x xs => simp [hd]

/-- Elements can be read back behind the first one, each behind a separator. -/
theorem rest_append_inj (hd : d.isDigit = false) (hclose : close.isDigit = false)
    (hne : d ≠ close) (h : ∀ x ∈ xs, ∀ y ∈ ys, Legible write look x y)
    (heq : (xs.map write).flatMap (d :: sep ++ ·) ++ close :: r =
      (ys.map write).flatMap (d :: sep ++ ·) ++ close :: s) :
    xs.map look = ys.map look ∧ r = s := by
  induction xs generalizing ys with
  | nil =>
    cases ys with
    | nil => exact ⟨rfl, (List.cons.inj heq).2⟩
    | cons y ys => exact absurd (List.cons.inj heq).1.symm hne
  | cons x xs ih =>
    cases ys with
    | nil => exact absurd (List.cons.inj heq).1 hne
    | cons y ys =>
      have hnext : write x ++ ((xs.map write).flatMap (d :: sep ++ ·) ++ close :: r) =
          write y ++ ((ys.map write).flatMap (d :: sep ++ ·) ++ close :: s) := by
        simpa using heq
      have hxy := h x List.mem_cons_self y List.mem_cons_self
      obtain ⟨hlook, hrest⟩ := hxy _ _ (ends_rest hd hclose) (ends_rest hd hclose) hnext
      have htail : ∀ x ∈ xs, ∀ y ∈ ys, Legible write look x y := fun x hx y hy =>
        h x (List.mem_cons_of_mem _ hx) y (List.mem_cons_of_mem _ hy)
      obtain ⟨hlooks, hend⟩ := ih htail hrest
      exact ⟨by rw [List.map_cons, List.map_cons, hlook, hlooks], hend⟩

/-- Elements with separators between them can be read back up to the closing bracket, if none
begins with that bracket. -/
theorem intercalate_append_inj (hd : d.isDigit = false) (hclose : close.isDigit = false)
    (hne : d ≠ close) (hfirst : ∀ x ∈ xs ++ ys, ∀ t u, write x ++ t ≠ close :: u)
    (h : ∀ x ∈ xs, ∀ y ∈ ys, Legible write look x y)
    (heq : (d :: sep).intercalate (xs.map write) ++ close :: r =
      (d :: sep).intercalate (ys.map write) ++ close :: s) :
    xs.map look = ys.map look ∧ r = s := by
  cases xs with
  | nil =>
    cases ys with
    | nil => exact ⟨rfl, (List.cons.inj heq).2⟩
    | cons y ys =>
      rw [List.map_cons, intercalate_cons_eq, List.append_assoc] at heq
      exact absurd heq.symm (hfirst y (by simp) _ _)
  | cons x xs =>
    cases ys with
    | nil =>
      rw [List.map_cons, intercalate_cons_eq, List.append_assoc] at heq
      exact absurd heq (hfirst x (by simp) _ _)
    | cons y ys =>
      -- with a separator in front, the first elements are like the others
      have hrest : ((x :: xs).map write).flatMap (d :: sep ++ ·) ++ close :: r =
          ((y :: ys).map write).flatMap (d :: sep ++ ·) ++ close :: s := by
        simpa [intercalate_cons_eq] using heq
      exact rest_append_inj hd hclose hne h hrest

end

end Text

/-! ## Printed forms -/

mutual

/-- The printed form of a value with strings quoted like this. -/
def Value.spellWith (quote : List Char → List Char) : Value → List Char
  | .string s => quote s.toList
  | .list _ items => '(' :: [' '].intercalate (Value.formsWith quote items) ++ [')']
  | .vector _ items => '[' :: [' '].intercalate (Value.formsWith quote items) ++ [']']
  | .map _ entries =>
    '\x7b' :: [',', ' '].intercalate (Value.entryFormsWith quote entries) ++ ['\x7d']
  | .set _ items => '#' :: '\x7b' :: [' '].intercalate (Value.formsWith quote items) ++ ['\x7d']
  | v => v.spell
termination_by structural v => v

/-- The printed forms of the elements of a collection. -/
def Value.formsWith (quote : List Char → List Char) : List Value → List (List Char)
  | [] => []
  | v :: rest => v.spellWith quote :: Value.formsWith quote rest
termination_by structural vs => vs

/-- The printed forms of the entries of a map. -/
def Value.entryFormsWith (quote : List Char → List Char) :
    List (Value × Value) → List (List Char)
  | [] => []
  | (k, v) :: rest =>
    (k.spellWith quote ++ ' ' :: v.spellWith quote) :: Value.entryFormsWith quote rest
termination_by structural es => es

end

/-- The printed form of an entry. -/
def Value.entryWith (quote : List Char → List Char) (e : Value × Value) : List Char :=
  e.1.spellWith quote ++ ' ' :: e.2.spellWith quote

namespace Value

section
variable (quote : List Char → List Char) (items : List Value) (entries : List (Value × Value))

theorem formsWith_eq_map : formsWith quote items = items.map (spellWith quote) := by
  induction items with
  | nil => rfl
  | cons v items ih => rw [formsWith, ih, List.map_cons]

theorem entryFormsWith_eq_map : entryFormsWith quote entries = entries.map (entryWith quote) := by
  induction entries with
  | nil => rfl
  | cons e entries ih => rw [entryFormsWith, ih, List.map_cons, entryWith]

end

mutual

/-- Values are printed with their strings quoted. -/
theorem spellWith_quote (v : Value) : v.spellWith Text.quote = v.spell := by
  cases v with
  | list id items => simp [spellWith, spell, intercalate_formsWith_quote items]
  | vector id items => simp [spellWith, spell, intercalate_formsWith_quote items]
  | map id entries => simp [spellWith, spell, intercalate_entryFormsWith_quote entries]
  | set id items => simp [spellWith, spell, intercalate_formsWith_quote items]
  | _ => rfl
termination_by structural v

theorem intercalate_formsWith_quote (vs : List Value) :
    [' '].intercalate (formsWith Text.quote vs) = spellItems vs := by
  match vs with
  | [] => rfl
  | [v] => simp [formsWith, spellItems, spellWith_quote v]
  | v :: w :: rest =>
    calc
      [' '].intercalate (formsWith Text.quote (v :: w :: rest)) =
          v.spellWith Text.quote ++ [' '] ++ [' '].intercalate (formsWith Text.quote (w :: rest)) :=
        List.intercalate_cons_cons
      _ = v.spell ++ [' '] ++ spellItems (w :: rest) := by
        rw [spellWith_quote v, intercalate_formsWith_quote (w :: rest)]
      _ = spellItems (v :: w :: rest) := by simp [spellItems]
termination_by structural vs

theorem intercalate_entryFormsWith_quote (es : List (Value × Value)) :
    [',', ' '].intercalate (entryFormsWith Text.quote es) = spellEntries es := by
  match es with
  | [] => rfl
  | [(k, v)] => simp [entryFormsWith, spellEntries, spellWith_quote k, spellWith_quote v]
  | (k, v) :: e :: rest =>
    calc
      [',', ' '].intercalate (entryFormsWith Text.quote ((k, v) :: e :: rest)) =
          k.spellWith Text.quote ++ ' ' :: v.spellWith Text.quote ++ [',', ' '] ++
            [',', ' '].intercalate (entryFormsWith Text.quote (e :: rest)) :=
        List.intercalate_cons_cons
      _ = k.spell ++ ' ' :: v.spell ++ [',', ' '] ++ spellEntries (e :: rest) := by
        rw [spellWith_quote k, spellWith_quote v, intercalate_entryFormsWith_quote (e :: rest)]
      _ = spellEntries ((k, v) :: e :: rest) := by simp [spellEntries]
termination_by structural es

end

/-! ## Kinds -/

/-- The kind of plain data whose printed form begins with this character. -/
def kindOf (c : Char) : String :=
  if c.isDigit then "integer"
  else
    match c with
    | 'n' => "nil"
    | 't' | 'f' => "boolean"
    | '-' => "integer"
    | '"' => "string"
    | '(' => "list"
    | '[' => "vector"
    | '\x7b' => "map"
    | '#' => "set"
    | _ => ""

section
variable {quote : List Char → List Char} {a b v w : Value}

theorem toString_cons (n : Int) :
    ∃ c t, (toString n).toList = c :: t ∧ kindOf c = "integer" := by
  cases n with
  | ofNat m =>
    obtain ⟨c, t, hc, hdigit⟩ := Text.toDigits_cons m
    exact ⟨c, t, (Text.toList_toString_ofNat m).trans hc, if_pos hdigit⟩
  | negSucc m => exact ⟨'-', _, Text.toList_toString_negSucc m, rfl⟩

/-- A printed form begins with a character that tells the kind. -/
theorem Plain.spellWith_cons (hquote : Text.Quotes quote) (h : v.Plain) :
    ∃ c t, v.spellWith quote = c :: t ∧ kindOf c = v.typeName := by
  cases h with
  | nil => exact ⟨'n', _, rfl, rfl⟩
  | bool b => cases b <;> exact ⟨_, _, rfl, rfl⟩
  | integer n => exact toString_cons n.toInt
  | string s =>
    obtain ⟨body, -, hs⟩ := hquote s.toList
    exact ⟨'"', _, hs, rfl⟩
  | list _ => exact ⟨'(', _, rfl, rfl⟩
  | vector _ => exact ⟨'[', _, rfl, rfl⟩
  | map _ _ => exact ⟨'\x7b', _, rfl, rfl⟩
  | set _ => exact ⟨'#', _, rfl, rfl⟩

theorem Plain.sameKind (ha : a.Plain) (hb : b.Plain) (h : a.typeName = b.typeName) :
    SameKind a b := by
  cases ha <;> cases hb <;> first | constructor | (simp [typeName] at h)

/-- Two printed forms that begin alike are forms of one kind. -/
theorem sameKind_of_append_eq (hquote : Text.Quotes quote) (ha : a.Plain) (hb : b.Plain)
    {r s : List Char} (h : a.spellWith quote ++ r = b.spellWith quote ++ s) : SameKind a b := by
  obtain ⟨c, t, hc, hkind⟩ := ha.spellWith_cons hquote
  obtain ⟨d, u, hd, hkind'⟩ := hb.spellWith_cons hquote
  rw [hc, hd] at h
  rw [(List.cons.inj h).1] at hkind
  exact ha.sameKind hb (hkind.symm.trans hkind')

/-- No printed form begins with the closing bracket of a collection. -/
theorem Plain.spellWith_append_ne (hquote : Text.Quotes quote) (h : v.Plain) {close : Char}
    (hclose : kindOf close = "") (t u : List Char) : v.spellWith quote ++ t ≠ close :: u := by
  intro heq
  obtain ⟨c, rest, hc, hkind⟩ := h.spellWith_cons hquote
  rw [hc] at heq
  rw [(List.cons.inj heq).1, hclose] at hkind
  cases h <;> simp [typeName] at hkind

end

/-! ## Collections -/

section
variable {quote : List Char → List Char} {a b : Value} {close : Char} {r s : List Char}

theorem items_append_inj (hquote : Text.Quotes quote) {xs ys : List Value}
    (hxs : ∀ x ∈ xs, x.Plain) (hys : ∀ y ∈ ys, y.Plain) (hkind : kindOf close = "")
    (hclose : close.isDigit = false) (hne : ' ' ≠ close)
    (h : ∀ x ∈ xs, ∀ y ∈ ys, Text.Legible (spellWith quote) shape x y)
    (heq : [' '].intercalate (formsWith quote xs) ++ [close] ++ r =
      [' '].intercalate (formsWith quote ys) ++ [close] ++ s) :
    shapeItems xs = shapeItems ys ∧ r = s := by
  rw [formsWith_eq_map, formsWith_eq_map, List.append_assoc, List.append_assoc] at heq
  rw [shapeItems_eq_map, shapeItems_eq_map]
  refine Text.intercalate_append_inj (by decide) hclose hne ?_ h heq
  intro x hx
  have hplain : x.Plain := (List.mem_append.mp hx).elim (hxs x) (hys x)
  exact hplain.spellWith_append_ne hquote hkind

theorem legible_entry {e f : Value × Value} (hkey : Text.Legible (spellWith quote) shape e.1 f.1)
    (hvalue : Text.Legible (spellWith quote) shape e.2 f.2) :
    Text.Legible (entryWith quote) (Prod.map shape shape) e f := by
  intro r s hr hs heq
  simp only [entryWith, List.append_assoc, List.cons_append] at heq
  obtain ⟨hk, hrest⟩ := hkey _ _ (by simp) (by simp) heq
  obtain ⟨hv, hend⟩ := hvalue r s hr hs (List.cons.inj hrest).2
  exact ⟨by rw [Prod.map, Prod.map, hk, hv], hend⟩

theorem entries_append_inj (hquote : Text.Quotes quote) {es fs : List (Value × Value)}
    (hes : ∀ e ∈ es, e.1.Plain) (hfs : ∀ f ∈ fs, f.1.Plain)
    (h : ∀ e ∈ es, ∀ f ∈ fs, Text.Legible (entryWith quote) (Prod.map shape shape) e f)
    (heq : [',', ' '].intercalate (entryFormsWith quote es) ++ ['\x7d'] ++ r =
      [',', ' '].intercalate (entryFormsWith quote fs) ++ ['\x7d'] ++ s) :
    shapeEntries es = shapeEntries fs ∧ r = s := by
  rw [entryFormsWith_eq_map, entryFormsWith_eq_map, List.append_assoc, List.append_assoc] at heq
  rw [shapeEntries_eq_map, shapeEntries_eq_map]
  refine Text.intercalate_append_inj (by decide) (by decide) (by decide) ?_ h heq
  intro e he t u
  have hplain : e.1.Plain := (List.mem_append.mp he).elim (hes e) (hfs e)
  rw [entryWith, List.append_assoc]
  exact hplain.spellWith_append_ne hquote rfl _ u

/-- Plain data can be read back if what is in it can. -/
theorem Plain.legible_step (hquote : Text.Quotes quote) (ha : a.Plain) (hb : b.Plain)
    (h : ∀ x ∈ a.elements, ∀ y ∈ b.elements, Text.Legible (spellWith quote) shape x y) :
    Text.Legible (spellWith quote) shape a b := by
  intro r s hr hs heq
  -- once the kinds agree, each kind has its own end; only integers need to know what comes next
  cases sameKind_of_append_eq hquote ha hb heq with
  | nil => exact ⟨rfl, List.append_cancel_left heq⟩
  | bool a b =>
    cases a <;> cases b
    · exact ⟨rfl, List.append_cancel_left heq⟩
    · cases (List.cons.inj heq).1
    · cases (List.cons.inj heq).1
    · exact ⟨rfl, List.append_cancel_left heq⟩
  | integer m n =>
    obtain ⟨hsame, hrest⟩ := Text.toString_append_inj hr hs heq
    exact ⟨congrArg Value.integer (Int64.toInt_inj.mp hsame), hrest⟩
  | string a b =>
    obtain ⟨hsame, hrest⟩ := hquote.append_inj heq
    exact ⟨congrArg Value.string (String.toList_inj.mp hsame), hrest⟩
  | list i j xs ys =>
    obtain ⟨hshape, hrest⟩ := items_append_inj hquote ha.elements hb.elements rfl rfl (by decide) h
      (List.cons.inj heq).2
    exact ⟨congrArg (Value.list 0) hshape, hrest⟩
  | vector i j xs ys =>
    obtain ⟨hshape, hrest⟩ := items_append_inj hquote ha.elements hb.elements rfl rfl (by decide) h
      (List.cons.inj heq).2
    exact ⟨congrArg (Value.vector 0) hshape, hrest⟩
  | set i j xs ys =>
    obtain ⟨hshape, hrest⟩ := items_append_inj hquote ha.elements hb.elements rfl rfl (by decide) h
      (List.cons.inj (List.cons.inj heq).2).2
    exact ⟨congrArg (Value.set 0) hshape, hrest⟩
  | map i j es fs =>
    have hes := forall_elements_map.mp ha.elements
    have hfs := forall_elements_map.mp hb.elements
    have hentries : ∀ e ∈ es, ∀ f ∈ fs, Text.Legible (entryWith quote) (Prod.map shape shape) e f :=
      fun e he f hf => legible_entry
        (h _ (mem_elements_map he).1 _ (mem_elements_map hf).1)
        (h _ (mem_elements_map he).2 _ (mem_elements_map hf).2)
    obtain ⟨hshape, hrest⟩ := entries_append_inj hquote (fun e he => (hes e he).1)
      (fun f hf => (hfs f hf).1) hentries (List.cons.inj heq).2
    exact ⟨congrArg (Value.map 0) hshape, hrest⟩
  | real _ _ => cases ha
  | keyword _ _ => cases ha
  | var _ _ => cases ha
  | callable _ _ => cases ha

theorem Plain.legible (hquote : Text.Quotes quote) {a b : Value} (ha : a.Plain) (hb : b.Plain) :
    Text.Legible (spellWith quote) shape a b := by
  refine ha.legible_step hquote hb fun x hx y hy => ?_
  exact (ha.elements x hx).legible hquote (hb.elements y hy)
termination_by sizeOf a
decreasing_by exact sizeOf_lt_of_mem_elements hx

end

mutual

/-- Identities are not printed. -/
theorem spellWith_shape (quote : List Char → List Char) (v : Value) :
    v.shape.spellWith quote = v.spellWith quote := by
  cases v with
  | list id items => simp [shape, spellWith, formsWith_shape quote items]
  | vector id items => simp [shape, spellWith, formsWith_shape quote items]
  | map id entries => simp [shape, spellWith, entryFormsWith_shape quote entries]
  | set id items => simp [shape, spellWith, formsWith_shape quote items]
  | _ => rfl
termination_by structural v

theorem formsWith_shape (quote : List Char → List Char) (vs : List Value) :
    formsWith quote (shapeItems vs) = formsWith quote vs := by
  cases vs with
  | nil => rfl
  | cons v rest => simp [shapeItems, formsWith, spellWith_shape quote v, formsWith_shape quote rest]
termination_by structural vs

theorem entryFormsWith_shape (quote : List Char → List Char) (es : List (Value × Value)) :
    entryFormsWith quote (shapeEntries es) = entryFormsWith quote es := by
  match es with
  | [] => rfl
  | (k, v) :: rest =>
    simp [shapeEntries, entryFormsWith, spellWith_shape quote k, spellWith_shape quote v,
      entryFormsWith_shape quote rest]
termination_by structural es

end

theorem Plain.spellWith_eq_iff {quote : List Char → List Char} (hquote : Text.Quotes quote)
    {a b : Value} (ha : a.Plain) (hb : b.Plain) :
    a.spellWith quote = b.spellWith quote ↔ a.shape = b.shape := by
  constructor
  · intro h
    have hread := ha.legible hquote hb [] [] Text.ends_nil Text.ends_nil
    exact (hread (congrArg (· ++ []) h)).1
  · intro h
    rw [← spellWith_shape quote a, h, spellWith_shape]

theorem Plain.text_eq_iff {a b : Value} (ha : a.Plain) (hb : b.Plain) :
    a.text = b.text ↔ a.shape = b.shape := by
  rw [text, text, String.ofList_inj, ← spellWith_quote, ← spellWith_quote,
    ha.spellWith_eq_iff Text.quotes_quote hb]

end Value

/-- Plain data with one printed form has one shape, however strings are quoted so that they can be
read back, and plain data of one shape is equal. -/
theorem printed_form_unambiguous {quote : List Char → List Char} (hquote : Text.Quotes quote)
    {a b : Value} (ha : a.Plain) (hb : b.Plain) :
    (a.spellWith quote = b.spellWith quote ↔ a.shape = b.shape) ∧
    (a.text = b.text ↔ a.shape = b.shape) ∧
    ∀ vs, Stock vs → a ∈ vs → b ∈ vs → a.shape = b.shape → a.eq b = true := by
  refine ⟨ha.spellWith_eq_iff hquote hb, ha.text_eq_iff hb, ?_⟩
  intro vs hvs hav hbv hshape
  exact hvs.coherent.eq_of_shape hav hbv ha hshape

/-- Two lists that are made one after the other, each with a map of its own, under a key whose text
has a quote, a brace, blanks and a backslash in it. -/
theorem printed_form_unambiguous_nested :
    let key : Value := .string "\"\x7d \\ \t"
    let count : Value := .integer (-7)
    let made (id : Nat) : Value := .list (id + 1) [Value.mapOf id [(key, count)], count]
    (made 0).text = (made 2).text ∧ (made 0).shape = (made 2).shape ∧
      (made 0).eq (made 2) = true := by
  intro key count made
  have hplain : ∀ id, (made id).Plain := by
    intro id
    have hmap : (Value.mapOf id [(key, count)]).Plain :=
      .map (by simp [Value.entriesOf, Value.putEntry, key, Value.Plain.string])
        (by simp [Value.entriesOf, Value.putEntry, count, Value.Plain.integer])
    refine .list fun v hv => ?_
    rcases List.mem_cons.mp hv with rfl | hv
    · exact hmap
    · exact List.mem_singleton.mp hv ▸ .integer (-7)
  have hparts : Stock [count, key] := .plain (.plain .empty rfl) rfl
  have hfirst : Stock [made 0, Value.mapOf 0 [(key, count)], count, key] :=
    .list (.map hparts (by decide) (by simp)) (by decide) (by simp)
  have hboth : Stock [made 2, Value.mapOf 2 [(key, count)], made 0,
      Value.mapOf 0 [(key, count)], count, key] :=
    .list (.map hfirst (by decide) (by simp)) (by decide) (by simp)
  obtain ⟨-, htext, hequal⟩ :=
    printed_form_unambiguous Text.quotes_quote (hplain 0) (hplain 2)
  have hshape := htext.mp rfl
  exact ⟨htext.mpr hshape, hshape, hequal _ hboth (by simp) (by simp) hshape⟩

end ArityDispatch

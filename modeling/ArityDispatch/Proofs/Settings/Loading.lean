import ArityDispatch.Proofs.Texts
import ArityDispatch.Settings.Document

/-!
# Loaded settings

Settings can be read from a text or a file and can be overridden by the environment, and each of
these checks the level of what it returns. Settings put together by hand are not checked, so they
may have any level, also as what the environment overrides. The check trims the level; the
settings, and the error that refuses them, keep it as it was written. None of this depends on how
a text is parsed: a parser may give any settings for any text, or none.

An environment is made of any settings without a subscriber, and with one only if the level is
one. So whatever has been loaded makes an environment.
-/

namespace ArityDispatch

/-- There are bytes, and they are the text. -/
def Text.Present (value : Option (List UInt8)) (text : String) : Prop :=
  ∃ bytes, value = some bytes ∧ Encodes bytes text

theorem Text.present_iff {value : Option (List UInt8)} {text : String} :
    Present value text ↔ value.bind ofBytes? = some text := by
  simp only [Present, Option.bind_eq_some_iff, ofBytes?_eq_some_iff]

namespace Settings

/-- The level is one. -/
def Accepted (s : Settings) : Prop := ∃ l, s.level? = .ok l

/-- What a setting is once the environment has been looked at: the text that the environment sets,
if it sets one, and otherwise what it was before. -/
inductive Takes (value : Option (List UInt8)) (before : String) : String → Prop
  | set {text : String} : Text.Present value text → Takes value before text
  | unset : (∀ text, ¬ Text.Present value text) → Takes value before before

/-- The settings that are left when these values of the environment override others. -/
structure Overridden (base : Settings) (ns level : Option (List UInt8)) (s : Settings) : Prop where
  ns_takes : Takes ns base.ns s.ns
  level_takes : Takes level base.level s.level
  subscriber_eq : s.subscriber = base.subscriber

/-- Settings that one of the loaders returns, with this parser for texts. The settings by default
are among those that the environment overrides. -/
inductive Loaded (parse : String → Option Settings) : Settings → Prop
  | text {document : String} {s : Settings} : ofText parse document = .ok s → Loaded parse s
  | file {content : Option (List UInt8)} {s : Settings} : ofFile parse content = .ok s →
      Loaded parse s
  | merged {base s : Settings} {ns level : Option (List UInt8)} :
      base.merge ns level = .ok s → Loaded parse s

variable {parse : String → Option Settings} {base s t : Settings}
  {ns level value : Option (List UInt8)} {e : SettingsError}

/-! ## The check -/

theorem level?_eq_error_iff : s.level? = .error e ↔ ¬ s.Accepted ∧ e = .unknownLevel s.level := by
  unfold Accepted level?
  cases Level.ofText? s.level.toList with
  | none => simp [eq_comm]
  | some l => simp

theorem checked_eq_ok_iff : s.checked = .ok t ↔ t = s ∧ s.Accepted := by
  unfold checked Accepted
  cases s.level? with
  | ok l => simp [eq_comm]
  | error e => simp

theorem checked_eq_error_iff :
    s.checked = .error e ↔ ¬ s.Accepted ∧ e = .unknownLevel s.level := by
  rw [← level?_eq_error_iff, checked]
  cases s.level? with
  | ok l => simp
  | error e => simp

/-! ## The loaders -/

theorem ofText_eq_ok_iff {document : String} :
    ofText parse document = .ok s ↔ parse document = some s ∧ s.Accepted := by
  unfold ofText
  cases parse document with
  | none => simp
  | some t => grind [checked_eq_ok_iff]

theorem ofFile_eq_ok_iff {content : Option (List UInt8)} :
    ofFile parse content = .ok s ↔ ∃ document, Text.Present content document ∧
      ofText parse document = .ok s := by
  simp only [Text.present_iff, ofFile]
  cases content.bind Text.ofBytes? with
  | none => simp
  | some document => simp

theorem takes_iff {before after : String} :
    Takes value before after ↔ after = (value.bind Text.ofBytes?).getD before := by
  constructor
  · intro h
    cases h with
    | set hset => rw [Text.present_iff.mp hset, Option.getD_some]
    | unset hunset =>
      simp only [Text.present_iff, ← Option.eq_none_iff_forall_ne_some] at hunset
      rw [hunset, Option.getD_none]
  · rintro rfl
    cases htext : value.bind Text.ofBytes? with
    | none =>
      refine .unset fun text hset => ?_
      rw [Text.present_iff, htext] at hset
      cases hset
    | some text => exact .set (Text.present_iff.mpr htext)

theorem overridden_iff : Overridden base ns level s ↔ s =
    { base with
      ns := (ns.bind Text.ofBytes?).getD base.ns
      level := (level.bind Text.ofBytes?).getD base.level } := by
  constructor
  · intro h
    have hns := takes_iff.mp h.ns_takes
    have hlevel := takes_iff.mp h.level_takes
    rw [← hns, ← hlevel, ← h.subscriber_eq]
  · rintro rfl
    exact ⟨takes_iff.mpr rfl, takes_iff.mpr rfl, rfl⟩

theorem merge_eq_ok_iff :
    base.merge ns level = .ok s ↔ base.Overridden ns level s ∧ s.Accepted := by
  rw [merge, checked_eq_ok_iff, overridden_iff]
  constructor
  · rintro ⟨rfl, haccepted⟩
    exact ⟨rfl, haccepted⟩
  · rintro ⟨rfl, haccepted⟩
    exact ⟨rfl, haccepted⟩

theorem merge_eq_error_iff : base.merge ns level = .error e ↔
    ∃ t, base.Overridden ns level t ∧ ¬ t.Accepted ∧ e = .unknownLevel t.level := by
  simp only [merge, checked_eq_error_iff, overridden_iff, exists_eq_left]

/-- The environment sets again what it has set before. -/
theorem Takes.again {before after : String} (h : Takes value before after) :
    Takes value after after := by
  cases h with
  | set hset => exact .set hset
  | unset hunset => exact .unset hunset

theorem Overridden.again (h : base.Overridden ns level s) : s.Overridden ns level s :=
  ⟨h.ns_takes.again, h.level_takes.again, rfl⟩

theorem Loaded.accepted (h : Loaded parse s) : s.Accepted := by
  cases h with
  | text h => exact (ofText_eq_ok_iff.mp h).2
  | file h =>
    obtain ⟨document, -, htext⟩ := ofFile_eq_ok_iff.mp h
    exact (ofText_eq_ok_iff.mp htext).2
  | merged h => exact (merge_eq_ok_iff.mp h).2

/-! ## Environments -/

theorem create_eq_error_iff : Environment.create s = .error e ↔
    s.subscriber = true ∧ ¬ s.Accepted ∧ e = .unknownLevel s.level := by
  rw [← checked_eq_error_iff, Environment.create]
  cases s.subscriber with
  | false => simp
  | true => cases s.checked <;> simp [Except.map]

theorem Accepted.create (h : s.Accepted) : Environment.create s = .ok { settings := s } := by
  unfold Environment.create
  rw [checked_eq_ok_iff.mpr ⟨rfl, h⟩]
  split
  · rfl
  · rfl

theorem newEnvironment_eq_none_iff {document : Option (List UInt8)} :
    Boundary.newEnvironment parse document = none ↔ ∃ bytes, document = some bytes ∧
      ((∀ text, ¬ Text.Spells bytes text) ∨
        ∃ text e, Text.Spells bytes text ∧ ofText parse text = .error e) := by
  cases document with
  | none => simp [Boundary.newEnvironment, Environment.create, Except.toOption]
  | some bytes =>
    simp only [Option.some.injEq, exists_eq_left', ← Text.ofTerminated?_eq_some_iff,
      Boundary.newEnvironment]
    cases Text.ofTerminated? bytes with
    | none => simp
    | some text =>
      cases htext : ofText parse text with
      | error e => simp [htext, Except.toOption]
      | ok s =>
        have hcreate := (Loaded.text htext).accepted.create
        simp [htext, hcreate, Except.toOption]

end Settings

/-- Whatever the parser, what is loaded has a level that is one and makes an environment. A text
gives just the settings that it is parsed to, if their level is one. The environment overrides
the namespace and the level where it sets them, of any settings, and what comes out is refused,
with its level as it is written, just if that is none; overriding again changes nothing. At the
boundary no environment is made just if the document is no text or is refused, and by hand just if
a subscriber is asked for and the level is none. -/
theorem loaded_settings_accepted (parse : String → Option Settings) (base s : Settings)
    (ns level document : Option (List UInt8)) (e : SettingsError) :
    (Settings.Loaded parse s → s.Accepted ∧ Environment.create s = .ok { settings := s }) ∧
    (∀ text, Settings.ofText parse text = .ok s ↔ parse text = some s ∧ s.Accepted) ∧
    (base.merge ns level = .ok s ↔ base.Overridden ns level s ∧ s.Accepted) ∧
    (base.merge ns level = .error e ↔
      ∃ t, base.Overridden ns level t ∧ ¬ t.Accepted ∧ e = .unknownLevel t.level) ∧
    (base.merge ns level = .ok s → s.merge ns level = .ok s) ∧
    (Environment.create s = .error e ↔
      s.subscriber = true ∧ ¬ s.Accepted ∧ e = .unknownLevel s.level) ∧
    (Boundary.newEnvironment parse document = none ↔ ∃ bytes, document = some bytes ∧
      ((∀ text, ¬ Text.Spells bytes text) ∨
        ∃ text e, Text.Spells bytes text ∧ Settings.ofText parse text = .error e)) := by
  refine ⟨?_, fun _ => Settings.ofText_eq_ok_iff, Settings.merge_eq_ok_iff,
    Settings.merge_eq_error_iff, ?_, Settings.create_eq_error_iff,
    Settings.newEnvironment_eq_none_iff⟩
  · intro hloaded
    exact ⟨hloaded.accepted, hloaded.accepted.create⟩
  · intro hmerge
    obtain ⟨hoverridden, haccepted⟩ := Settings.merge_eq_ok_iff.mp hmerge
    exact Settings.merge_eq_ok_iff.mpr ⟨hoverridden.again, haccepted⟩

/-- Settings that make no environment are loaded once the environment sets a level, here with a
blank in front; their namespace stays, the one in the environment being no text. -/
theorem loaded_settings_accepted_over_unknown_level :
    let base : Settings := { level := "loud", subscriber := true }
    let s : Settings := { level := " +3", subscriber := true }
    let ns : Option (List UInt8) := some [0xff]
    let level : Option (List UInt8) := some [0x20, 0x2b, 0x33]
    Environment.create base = .error (.unknownLevel "loud") ∧ base.merge ns level = .ok s ∧
      s.merge ns level = .ok s ∧ Environment.create s = .ok { settings := s } := by
  intro base s ns level
  have hbase : Environment.create base = .error (.unknownLevel "loud") :=
    Settings.create_eq_error_iff.mpr ⟨rfl, Settings.level?_eq_error_iff.mp (by decide)⟩
  have hmerge : base.merge ns level = .ok s := by decide
  obtain ⟨hloaded, -, -, -, hagain, -, -⟩ :=
    loaded_settings_accepted Settings.parse? base s ns level none (.unknownLevel "loud")
  exact ⟨hbase, hmerge, hagain hmerge, (hloaded (.merged hmerge)).2⟩

end ArityDispatch

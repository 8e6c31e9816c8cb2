import ArityDispatch.Settings.Level
import ArityDispatch.Text.Bytes

/-!
# Settings

The settings of a runtime: the namespace of names that are given without one, the log
level as it was written, and whether making a runtime installs the log subscriber. They
come from a document, from a file, from the environment on top of other settings, or they
are put together by hand. Whatever is read or merged is checked, so that its level is one;
settings put together by hand are checked only when something needs the level.
-/

namespace ArityDispatch

inductive SettingsError where
  /-- The file is missing or is no text. -/
  | unreadable
  /-- The document is malformed, or has an unknown or repeated key or a value of the wrong
  kind. -/
  | malformed
  | unknownLevel (level : String)
deriving DecidableEq, Repr, Inhabited

/-- The wording for an unknown level. The other causes are worded by whoever found them. -/
def SettingsError.levelMessage (level : String) : String := "unknown log level: " ++ level

structure Settings where
  ns : String := "user"
  level : String := "warn"
  subscriber : Bool := false
deriving DecidableEq, Repr, Inhabited

namespace Settings

def level? (s : Settings) : Except SettingsError Level :=
  match Level.ofText? s.level.toList with
  | some l => .ok l
  | none => .error (.unknownLevel s.level)

/-- The settings themselves, if their level is one. -/
def checked (s : Settings) : Except SettingsError Settings :=
  match s.level? with
  | .ok _ => .ok s
  | .error e => .error e

/-! What the text of a document means is up to a parser, which gives no settings for a text
that is malformed. -/

section
variable (parse : String → Option Settings)

def ofText (document : String) : Except SettingsError Settings :=
  match parse document with
  | some s => s.checked
  | none => .error .malformed

/-- Reads a file by its content; a missing file has none. -/
def ofFile (content : Option (List UInt8)) : Except SettingsError Settings :=
  match content.bind Text.ofBytes? with
  | some document => ofText parse document
  | none => .error .unreadable

end

/-- Overrides by what the environment sets. A value that is no text counts as unset. -/
def merge (s : Settings) (ns level : Option (List UInt8)) : Except SettingsError Settings :=
  checked
    { s with
      ns := (ns.bind Text.ofBytes?).getD s.ns
      level := (level.bind Text.ofBytes?).getD s.level }

end Settings

end ArityDispatch

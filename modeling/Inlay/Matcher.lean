import Inlay.Pattern.Parse
import Inlay.Settings

/-!
# Which modules hold data

A **matcher** tells data modules by their names. It is a pattern, given by the settings or the
default one, which asks for the extension `.json`, possibly with a loader tag, in any letter case.

* `Matcher.ofSettings` makes a matcher, or says what is wrong with the settings.
* `Matcher.accepts` asks it.
-/

namespace Inlay

/-- **What is wrong with settings.** -/
inductive SettingsError where
  | malformed (cause : Json.Error)
  | badPattern (pattern : String)
  | badFlag (flag : Char)
deriving DecidableEq, Repr

/-- The wording of what is wrong. -/
def SettingsError.message : SettingsError → String
  | malformed cause => "Invalid plugin config: " ++ cause.message
  | badPattern pattern => "Invalid `match` pattern " ++ Text.quoteString pattern
  | badFlag flag => "Invalid `matchFlags` flag " ++ Text.quoteChar flag

/-- **A matcher**: a pattern as it is written and as it is understood. -/
structure Matcher where
  source : String
  regex : Pattern.Regex Pattern.Atom

namespace Matcher

/-- The matcher takes `module` for the name of a data module. -/
def accepts (m : Matcher) (module : String) : Bool := m.regex.isMatch module.toList

/-- The pattern that is used when none is set. -/
def defaultSource : String := "(?i)\\.json(?:!json)?$"

/-- **The default matcher.** -/
def default : Matcher :=
  ⟨defaultSource, (Pattern.parse? {} defaultSource).getD .empty⟩

/-- A matcher for a pattern, if it can be understood. -/
def ofPattern (flags : Pattern.Flags) (pattern : String) : Except SettingsError Matcher :=
  match Pattern.parse? flags pattern with
  | some regex => .ok ⟨pattern, regex⟩
  | none => .error (.badPattern pattern)

/-- **Flags as letters**, first to last. `u`, `g` and `y` are allowed and change nothing. -/
def readFlags (flags : Pattern.Flags) : List Char → Except SettingsError Pattern.Flags
  | [] => .ok flags
  | 'i' :: rest => readFlags { flags with caseless := true } rest
  | 'm' :: rest => readFlags { flags with multiLine := true } rest
  | 's' :: rest => readFlags { flags with dotAll := true } rest
  | c :: rest =>
    if c = 'u' || c = 'g' || c = 'y' then readFlags flags rest else .error (.badFlag c)

/-- **The matcher of settings.** Without a pattern it is the default one, whatever the flags are;
    otherwise flags are looked at before the pattern. -/
def ofSettings (settings : Settings) : Except SettingsError Matcher :=
  match settings.pattern with
  | none => .ok default
  | some pattern =>
    if pattern.isEmpty then .ok default
    else do
      let flags ← readFlags {} (settings.flags.getD "").toList
      ofPattern flags pattern

/-- The matcher of settings that are still a text. -/
def ofText (text : String) : Except SettingsError Matcher :=
  match Settings.parse text with
  | .ok settings => ofSettings settings
  | .error cause => .error (.malformed cause)

end Matcher

end Inlay

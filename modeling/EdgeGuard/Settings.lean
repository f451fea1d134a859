import EdgeGuard.Locale

/-!
# `EdgeGuard.Settings`: settings from the environment

One setting: the language of rendered conditions. It is taken from a variable of the environment
unless that is blank, and can be overridden.
-/

set_option autoImplicit false

namespace EdgeGuard

/-- The settings of a run. -/
structure Settings where
  locale : Locale
deriving DecidableEq

namespace Settings

/-- The variable of the environment that names the language. -/
def localeKey : String := "FLOWCOND_LOCALE"

/-- The settings that an environment asks for. -/
def ofLookup (lookup : String → Option String) : Except UnknownLocale Settings :=
  match lookup localeKey with
  | some text =>
    if Text.trim text = "" then .ok ⟨.en⟩ else (Locale.ofText text).map Settings.mk
  | none => .ok ⟨.en⟩

/-- The settings with the language overridden, if another is asked for. -/
def withLocale (settings : Settings) : Option Locale → Settings
  | some locale => { settings with locale := locale }
  | none => settings

end Settings

end EdgeGuard

import Overlay.Text.Rune

/-!
# Log lines

What the library reports beside its answers: a level, the part of the library that speaks, and the
text as it was when the line was written.
-/

namespace Overlay
set_option autoImplicit false

/-- The weight of a log line. -/
inductive LogLevel where
  | debug
  | info
  | warning
  | error
  deriving DecidableEq, Repr

namespace LogLevel

/-- The word for a level. -/
def word : LogLevel → Text
  | .debug => "DEBUG"
  | .info => "INFO"
  | .warning => "WARNING"
  | .error => "ERROR"

/-- The weight of a level. -/
def weight : LogLevel → Nat
  | .debug => 10
  | .info => 20
  | .warning => 30
  | .error => 40

end LogLevel

/-- A line of the log. -/
structure LogLine where
  level : LogLevel
  /-- The part of the library that speaks. -/
  source : Text
  message : Text
  deriving DecidableEq, Repr

namespace LogLine

/-- Said when a source text has no header. -/
def noHeader : LogLine :=
  ⟨.debug, "valija.disfunction", "function header did not match; using generic representation"⟩

/-- Said when a callable, shown as given, has no source text. -/
def noSource (shown : Text) : LogLine :=
  ⟨.debug, "valija.host", "no source text for " ++ shown⟩

/-- Said when a shadow has been made. -/
def newShadow (callable category parent : Text) : LogLine :=
  ⟨.debug, "valija.shadows",
    "created shadow for " ++ callable ++ " (category " ++ category ++ ", parent " ++ parent ++ ")"⟩

/-- Said of each doubtful setting of a new plugin. -/
def doubtfulSetting (warning : Text) : LogLine :=
  ⟨.warning, "valija.runtime", "RuntimeConfig: " ++ warning⟩

/-- Said when a plugin is ready. -/
def pluginReady (shadows : Nat) : LogLine :=
  ⟨.info, "valija.runtime", "valija runtime ready (" ++ toString shadows ++ " seeded shadows)"⟩

end LogLine

end Overlay

import SymbolicLogic.Language.Registry

/-!
# Settings

Settings limit the size of tables and the number of attempts, say whether the
columns of basic formulas are graded, and add languages to the built-in ones.
-/

namespace SymbolicLogic

/-- Limits, grading and extra languages. -/
structure Settings where
  maxRows : Nat := 64
  maxAttempts : Nat := 3
  skipBasicColumns : Bool := false
  languages : List Language := []
  deriving DecidableEq, Repr

/-- Why settings cannot be loaded. -/
inductive SettingsError
  | unreadable (path : String)
  | malformed
  | language (error : LanguageError)
  deriving DecidableEq, Repr

namespace SettingsError

def message : SettingsError -> String
  | .unreadable path => "cannot read configuration `" ++ path ++ "`"
  | .malformed => "invalid configuration"
  | .language error => error.message

end SettingsError

instance : Reportable SettingsError where
  message := SettingsError.message
  report error :=
    { title := "Configuration error"
      fragments := Report.words error.message }

namespace Settings

/-- The built-in languages and those of the settings, in order. -/
def registry (settings : Settings) : Except LanguageError Registry :=
  settings.languages.foldlM Registry.register .builtin

end Settings
end SymbolicLogic

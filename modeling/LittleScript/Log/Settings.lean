import LittleScript.Text.Blank

/-!
Whether log lines are shown. The environment variable `LOG_LEVEL` decides, and nothing is shown
without it.
-/

namespace LittleScript.Log

def variableName : String := "LOG_LEVEL"

inductive Origin where
  | explicit | default
  deriving DecidableEq, Repr

def Origin.text : Origin → String
  | explicit => "explicit " ++ variableName
  | default => "default (disabled)"

structure Settings where
  enabled : Bool
  origin : Origin
  deriving DecidableEq, Repr

namespace Settings

/-- The values that turn the log on. White space around them and the case of ASCII letters do not
count. -/
def enabling : List String := ["1", "true", "yes", "on"]

def ofValue : Option String → Settings
  | none => ⟨false, .default⟩
  | some value =>
    let plain := String.ofList ((Blank.trim value.toList).map Char.toLower)
    ⟨plain ∈ enabling, .explicit⟩

end Settings
end LittleScript.Log

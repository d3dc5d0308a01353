import LittleScript.Log.Settings
import LittleScript.Run.Journal
import LittleScript.Syntax.Layout

/-!
Log entries and the lines that they are shown as.
-/

namespace LittleScript

inductive Mode where
  | tokens | tree
  deriving DecidableEq, Repr

def Mode.name : Mode → String
  | tokens => "Tokens"
  | tree => "Ast"

namespace Log

inductive Level where
  | trace | debug | info
  deriving DecidableEq, Repr

def Level.text : Level → String
  | trace => "TRACE"
  | debug => "DEBUG"
  | info => " INFO"

inductive Entry where
  | logging (origin : Origin)
  | shellStarted (mode : Mode)
  | lineRead (line : String) (mode : Mode)
  | sourceRead (path : String)
  | parsing (event : Event)

/-- A line of the log: level, message, and named values, which are not quoted. -/
def line (level : Level) (message : String) (fields : List (String × String)) : String :=
  level.text ++ " " ++ message ++
    String.join (fields.map fun field => " " ++ field.1 ++ "=" ++ field.2)

def eventLine? : Event → Option String
  | .statementBegun token peek =>
    some (line .trace "parse statement" [("token", token.describe), ("peek", peek.describe)])
  | .expressionBegun token precedence =>
    some (line .trace "parse expression"
      [("token", token.describe), ("precedence", precedence.name)])
  | .diagnosed diagnostic =>
    some (line .debug "recorded diagnostic" [("diagnostic", diagnostic.message)])
  | .kept statement => some (line .trace "parsed statement" [("statement", statement.render)])
  | .statementEnded .. | .moved .. | .levelTaken | .levelsReturned .. => none

def Entry.line? : Entry → Option String
  | logging origin => some (line .debug "logging enabled" [("source", origin.text)])
  | shellStarted mode => some (line .info "starting shell" [("mode", mode.name)])
  | lineRead text mode => some (line .trace "read line" [("line", text), ("mode", mode.name)])
  | sourceRead path => some (line .info "reading source" [("path", path)])
  | parsing event => eventLine? event

def shown (settings : Settings) (entries : List Entry) : List String :=
  if settings.enabled then entries.filterMap Entry.line? else []

end Log
end LittleScript

import LittleScript.CommandLine.Arguments
import LittleScript.Shell.Session

/-!
Running a request. The result is an exit code and what is written to the two outputs; files and the
standard input are given as what reading them brings.
-/

namespace LittleScript.CommandLine

def versionText : String := "yac 0.1.0"

def helpText : String := "yac [--no-color] [repl [--ast] | tokens FILE | parse FILE]"

inductive FileContent where
  | missing
  | directory
  | bytes (content : List UInt8)
  deriving DecidableEq, Repr

structure Outcome where
  code : Nat
  output : ByteArray
  errorLines : List String

structure Surroundings where
  settings : Log.Settings
  terminal : Bool
  file : String → FileContent
  input : List UInt8

def failureLine (failure : Failure) : String :=
  "Error: Error \x7b kind: " ++ failure.kind ++ ", message: \"" ++ failure.message ++ "\" \x7d"

def missingLine (path : String) : String := "Error: File '" ++ path ++ "' not found"

def directoryLine : String :=
  "Error: Os \x7b code: 21, kind: IsADirectory, message: \"Is a directory\" \x7d"

def successLine (parsed : Parsed) : String :=
  "Parsed successfully. Found " ++ toString parsed.program.length ++ " top-level statements."

def diagnosedLine (path : String) (parsed : Parsed) : String :=
  "Parsing " ++ path ++ " produced " ++ toString parsed.diagnostics.length ++ " diagnostic(s)."

/-- Performs a script behind some log entries and reports how it ended. The log comes first on the
error output; `ending` gives the exit code and the last lines of a run that came to its end. -/
def conclude (settings : Log.Settings) (before : List Log.Entry) (script : Script)
    (ending : Nat × List String) : Outcome :=
  let (failure, console) := (Console.ofRoom none).perform script
  let shown := Log.shown settings (before ++ console.entries)
  match failure with
  | none => ⟨ending.1, console.sink.taken, shown ++ ending.2⟩
  | some failure => ⟨1, console.sink.taken, shown ++ [failureLine failure]⟩

def withSource (around : Surroundings) (before : List Log.Entry) (path : String)
    (next : List Log.Entry → String → Outcome) : Outcome :=
  let shown := Log.shown around.settings
  let opened := before ++ [.sourceRead path]
  match around.file path with
  | .missing => ⟨1, .empty, shown before ++ [missingLine path]⟩
  | .directory => ⟨1, .empty, shown opened ++ [directoryLine]⟩
  | .bytes content =>
    match Source.decode? content with
    | none => ⟨1, .empty, shown opened ++ [failureLine .notText]⟩
    | some text => next opened text

def Command.run (around : Surroundings) (plain : Bool) (command : Command) : Outcome :=
  let printer : Printer := ⟨around.terminal && !plain⟩
  let settings := around.settings
  let before := [Log.Entry.logging settings.origin]
  match command with
  | .shell mode =>
    conclude settings (before ++ [.shellStarted mode]) (Shell.start ⟨mode, printer⟩ around.input)
      (0, [])
  | .tokens path =>
    withSource around before path fun opened text =>
      conclude settings opened (printer.tokens text) (0, [])
  | .parse path =>
    withSource around before path fun opened text =>
      let parsed := LittleScript.parse text
      let log := opened ++ parsed.journal.events.map .parsing
      conclude settings log (printer.parsed parsed)
        (if parsed.hasErrors then (1, [diagnosedLine path parsed])
          else (0, [successLine parsed]))

def run (around : Surroundings) (arguments : List String) : Outcome :=
  match Request.ofArguments? arguments with
  | none => ⟨2, .empty, ["Usage: " ++ helpText]⟩
  | some .version => ⟨0, (versionText ++ "\n").toUTF8, []⟩
  | some .help => ⟨0, ("Usage: " ++ helpText ++ "\n").toUTF8, []⟩
  | some (.run plain command) => command.run around plain

end LittleScript.CommandLine

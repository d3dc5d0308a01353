import LittleScript.CommandLine.Run

/-!
The program. It reads arguments, files and the standard input, and shows what the commands leave.
-/

namespace LittleScript.Main

open CommandLine

/-- Reads a file. Whatever cannot be opened counts as missing. -/
def readFile (path : String) : IO FileContent := do
  try
    let content ← IO.FS.readBinFile path
    return .bytes content.toList
  catch
    | .inappropriateType _ code _ => return if code = 21 then .directory else .missing
    | _ => return .missing

/-- Reads up to the next line feed, which is kept, or to the end. -/
partial def readLine (input : IO.FS.Stream) (latest : List UInt8) : IO (List UInt8) := do
  let piece ← input.read 1
  match piece.toList with
  | byte :: _ =>
    if byte = Source.lineFeed then return (byte :: latest).reverse
    else readLine input (byte :: latest)
  | [] => return latest.reverse

def showErrors (lines : List String) : IO Unit := do
  let errors ← IO.getStderr
  lines.forM fun line => errors.putStrLn line

def perform (settings : Log.Settings) (script : Script) : IO (Option Failure) := do
  let (failure, console) := (Console.ofRoom none).perform script
  showErrors (Log.shown settings console.entries)
  let output ← IO.getStdout
  output.write console.sink.taken
  output.flush
  return failure

/-- The shell, line by line. -/
partial def converse (settings : Log.Settings) (shell : Shell) : IO UInt32 := do
  let _ ← perform settings shell.printer.prompt
  let read ← readLine (← IO.getStdin) []
  match Source.lines read with
  | [] => return 0
  | line :: _ =>
    match ← perform settings (shell.respond line) with
    | none => converse settings shell
    | some failure =>
      showErrors [failureLine failure]
      return 1

def finish (outcome : Outcome) : IO UInt32 := do
  let output ← IO.getStdout
  output.write outcome.output
  output.flush
  showErrors outcome.errorLines
  return outcome.code.toUInt32

end LittleScript.Main

open LittleScript LittleScript.CommandLine in
/-- Runs the program. The shell answers each line as it comes; every other command ends by itself. -/
def main (arguments : List String) : IO UInt32 := do
  let settings := Log.Settings.ofValue (← IO.getEnv Log.variableName)
  let terminal ← (← IO.getStdout).isTty
  match Request.ofArguments? arguments with
  | some (.run plain (.shell mode)) =>
    Main.showErrors (Log.shown settings [.logging settings.origin, .shellStarted mode])
    Main.converse settings ⟨mode, ⟨terminal && !plain⟩⟩
  | request =>
    let content ← match request.bind Request.file? with
      | some path => Main.readFile path
      | none => pure .missing
    Main.finish (CommandLine.run ⟨settings, terminal, fun _ => content, []⟩ arguments)

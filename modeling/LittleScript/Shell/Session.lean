import LittleScript.Shell.Printer
import LittleScript.Source.Lines

/-!
The shell: a prompt, a line, an answer, and so on to the end of the input. Every line is read by
itself; nothing of it is kept for the next one.
-/

namespace LittleScript

structure Shell where
  mode : Mode
  printer : Printer
  deriving DecidableEq, Repr

namespace Shell

def answer (shell : Shell) (line : String) : Script :=
  match shell.mode with
  | .tokens => shell.printer.tokens line
  | .tree =>
    let parsed := parse line
    parsed.journal.events.map (fun event => .note (.parsing event)) ++ shell.printer.parsed parsed

def respond (shell : Shell) (bytes : List UInt8) : Script :=
  match Source.decode? bytes with
  | none => [.fail .notText]
  | some line => .note (.lineRead line shell.mode) :: shell.answer line

/-- A prompt before each line, and one before the end of the input. -/
def converse (shell : Shell) (lines : List (List UInt8)) : Script :=
  lines.flatMap (fun line => shell.printer.prompt ++ shell.respond line) ++ shell.printer.prompt

def start (shell : Shell) (input : List UInt8) : Script :=
  shell.converse (Source.lines input)

end Shell
end LittleScript

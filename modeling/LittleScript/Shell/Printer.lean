import LittleScript.Parsed
import LittleScript.Shell.Color
import LittleScript.Shell.Script

/-!
Printing token listings and parsed texts, as scripts of what is to be written.
-/

namespace LittleScript

structure Printer where
  colored : Bool
  deriving DecidableEq, Repr

namespace Printer

/-- A piece of output with a role. Colour stands around it and does not change it. -/
def piece (printer : Printer) (role : Role) (text : String) : Script :=
  if printer.colored then [.write role.color.start, .write text, .write Color.stop]
  else [.write text]

def promptText : String := ">> "

def prompt (printer : Printer) : Script := printer.piece .prompt promptText

def token (printer : Printer) (token : Token) : Script :=
  printer.piece (.ofKind token.kind) token.kind.name ++
    [.write (" " ++ Quoted.quote token.literal ++ "\n")]

/-- A line for every token of a text. The end mark has none. -/
def tokens (printer : Printer) (text : String) : Script :=
  (TokenStream.ofText text).tokens.flatMap printer.token

def line (printer : Printer) (role : Role) (text : String) : Script :=
  printer.piece role text ++ [.write "\n"]

/-- A line for the program, unless it is empty, and a line for every report. -/
def parsed (printer : Printer) (parsed : Parsed) : Script :=
  (if parsed.program.isEmpty then [] else printer.line .success parsed.program.render) ++
    parsed.messages.flatMap (printer.line .error)

end Printer
end LittleScript

import LittleScript.Log.Entry

/-!
What the arguments of the program ask for. Options may stand before and behind the name of a command,
and `--` ends the options of the level that it stands on.
-/

namespace LittleScript.CommandLine

inductive Command where
  | shell (mode : Mode)
  | tokens (file : String)
  | parse (file : String)
  deriving DecidableEq, Repr

inductive Request where
  | run (plain : Bool) (command : Command)
  | version
  | help
  deriving DecidableEq, Repr

inductive Verb where
  | shell | tokens | parse
  deriving DecidableEq, Repr

def Verb.ofWord? : String → Option Verb
  | "repl" => some shell
  | "tokens" => some tokens
  | "parse" => some parse
  | _ => none

structure Given where
  plain : Bool
  tree : Bool
  file : Option String
  /-- The options have been ended. -/
  ended : Bool
  deriving DecidableEq, Repr

namespace Given

def command? (given : Given) : Verb → Option Command
  | .shell => some (.shell (if given.tree then .tree else .tokens))
  | .tokens => given.file.map .tokens
  | .parse => given.file.map .parse

def operand? (given : Given) (verb : Verb) (name : String) : Option Given :=
  if verb = .shell ∨ given.file.isSome ∨ name.isEmpty then none
  else some { given with file := some name }

end Given

/-- An argument that starts with a dash is an option. A dash alone is not. -/
def isOption (argument : String) : Bool :=
  match argument.toList with
  | '-' :: _ :: _ => true
  | _ => false

/-- A request for help. It may be the first of several short options. -/
def asksHelp (argument : String) : Bool :=
  argument = "--help" || "-h".toList.isPrefixOf argument.toList

def asksVersion (argument : String) : Bool :=
  argument = "--version" || "-V".toList.isPrefixOf argument.toList

def behindVerb (plain : Bool) (verb : Verb) (given : Given) : List String → Option Request
  | [] => (given.command? verb).map (.run (plain || given.plain))
  | argument :: rest =>
    if given.ended || !isOption argument then do
      behindVerb plain verb (← given.operand? verb argument) rest
    else if argument = "--" then behindVerb plain verb { given with ended := true } rest
    else if argument = "--no-color" ∧ !given.plain then
      behindVerb plain verb { given with plain := true } rest
    else if argument = "--ast" ∧ verb = .shell ∧ !given.tree then
      behindVerb plain verb { given with tree := true } rest
    else if asksHelp argument then some .help
    else none

def helpAbout : List String → Option Request
  | [] => some .help
  | [word] => if word = "help" ∨ (Verb.ofWord? word).isSome then some .help else none
  | _ => none

/-- Reads the arguments from the first on. Without a verb the shell is started. -/
def fromFirst (plain : Bool) : List String → Option Request
  | [] => some (.run plain (.shell .tokens))
  | argument :: rest =>
    match Verb.ofWord? argument with
    | some verb => behindVerb plain verb ⟨false, false, none, false⟩ rest
    | none =>
      if argument = "--" then
        if rest.isEmpty then some (.run plain (.shell .tokens)) else none
      else if argument = "--no-color" ∧ !plain then fromFirst true rest
      else if asksVersion argument then some .version
      else if asksHelp argument then some .help
      else if argument = "help" then helpAbout rest
      else none

def Request.file? : Request → Option String
  | run _ (.tokens file) | run _ (.parse file) => some file
  | _ => none

def Request.ofArguments? (arguments : List String) : Option Request := fromFirst false arguments

end LittleScript.CommandLine

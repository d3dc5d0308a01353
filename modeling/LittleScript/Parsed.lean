import LittleScript.Rule.Nested

/-!
Parsing whole texts. Every text is parsed to its end; what cannot be read is left out of the program
and reported in the journal.
-/

namespace LittleScript

open Run

/-- How many levels of expressions and blocks may be open at once. -/
def levelLimit : Nat := 128

def Rule.topStatement (limit : Nat) : Rule Statement := do
  let statement ← statement (within limit limit)
  record (.kept statement)
  return statement

/-- Reads statements to the end. A run that is already there finds an empty program. -/
def Run.State.finishProgram (s : State) (limit : Nat) : Program × State :=
  Rule.sequenceFrom (Rule.topStatement limit) (fun _ => false) [] s

structure Parsed where
  program : Program
  journal : Journal

namespace Parsed

def ofStream (limit : Nat) (stream : TokenStream) : Parsed :=
  let (program, finish) := (State.start stream .empty).finishProgram limit
  ⟨program, finish.journal⟩

def diagnostics (parsed : Parsed) : List Diagnostic := parsed.journal.diagnostics

def hasErrors (parsed : Parsed) : Bool := !parsed.diagnostics.isEmpty

def messages (parsed : Parsed) : List String := parsed.journal.messages

end Parsed

def parse (text : String) : Parsed := .ofStream levelLimit (.ofText text)

end LittleScript

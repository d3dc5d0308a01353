import LittleScript.Log.Entry
import LittleScript.Shell.Sink

/-!
Scripts: what a run of the program writes and notes, step by step, and how it fails if it does. A
script says what is to be done; performing it on a sink may end earlier.
-/

namespace LittleScript

inductive Act where
  | write (text : String)
  | note (entry : Log.Entry)
  | fail (failure : Failure)

abbrev Script := List Act

structure Console where
  sink : Sink
  log : List Log.Entry

namespace Console

def ofRoom (room : Option Nat) : Console := ⟨.ofRoom room, []⟩

def entries (console : Console) : List Log.Entry := console.log.reverse

/-- Does one step, or tells why it cannot be done. A text that does not fit is written as far as
there is room. -/
def step (console : Console) : Act → Option Failure × Console
  | .write text =>
    let (fits, sink) := console.sink.write text
    (if fits then none else some .sinkFull, { console with sink := sink })
  | .note entry => (none, { console with log := entry :: console.log })
  | .fail failure => (some failure, console)

def perform (console : Console) : Script → Option Failure × Console
  | [] => (none, console)
  | act :: script =>
    match console.step act with
    | (none, after) => perform after script
    | (some failure, after) => (some failure, after)

end Console
end LittleScript

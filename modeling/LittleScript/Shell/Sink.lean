/-!
Where output goes. A sink may have room for a number of bytes only; it takes what fits and no more.
-/

namespace LittleScript

inductive Failure where
  /-- The sink has no room left. -/
  | sinkFull
  /-- The input is not in UTF-8. -/
  | notText
  deriving DecidableEq, Repr

namespace Failure

def kind : Failure → String
  | sinkFull => "WriteZero"
  | notText => "InvalidData"

def message : Failure → String
  | sinkFull => "failed to write whole buffer"
  | notText => "stream did not contain valid UTF-8"

end Failure

/-- The bytes taken so far and the room that is left. Without a number the room has no end. -/
structure Sink where
  room : Option Nat
  taken : ByteArray

namespace Sink

def ofRoom (room : Option Nat) : Sink := ⟨room, .empty⟩

/-- Takes a text, or as many of its first bytes as there is room for. The flag tells whether all were
taken. -/
def write (sink : Sink) (text : String) : Bool × Sink :=
  let bytes := text.toUTF8
  match sink.room with
  | none => (true, ⟨none, sink.taken ++ bytes⟩)
  | some room =>
    if bytes.size ≤ room then (true, ⟨some (room - bytes.size), sink.taken ++ bytes⟩)
    else (false, ⟨some 0, sink.taken ++ bytes.extract 0 room⟩)

/-- A sink never takes more than it has room for. -/
theorem size_taken_write_le (room : Nat) (taken : ByteArray) (text : String) :
    ((⟨some room, taken⟩ : Sink).write text).2.taken.size ≤ taken.size + room := by
  unfold write
  dsimp only
  split
  · rw [ByteArray.size_append]
    omega
  · rw [ByteArray.size_append, ByteArray.size_extract]
    omega

end Sink
end LittleScript

import LittleScript.Proofs.Source.Encoding
import LittleScript.Shell.Script

/-!
What a script writes. Where there is room for everything these are the texts of its steps up to the first that
fails. Where there is not, the script is stopped, and what it has written is the beginning of that.
-/

namespace LittleScript

def Act.bytes : Act → List UInt8
  | .write text => Source.encode text.toList
  | .note _ | .fail _ => []

def Script.Unfailing (script : Script) : Prop := ∀ failure, Act.fail failure ∉ script

/-- How a script ends on a console without bounds, and the bytes that have been written there. -/
def Script.output (script : Script) : Option Failure × List UInt8 :=
  let (failure, console) := (Console.ofRoom none).perform script
  (failure, console.sink.taken.data.toList)

def Script.outputWithin (room : Nat) (script : Script) : Option Failure × List UInt8 :=
  let (failure, console) := (Console.ofRoom (some room)).perform script
  (failure, console.sink.taken.data.toList)

/-- How a script ends by itself and the bytes that it writes: those of its steps up to the first that fails. -/
def Script.outcome : Script → Option Failure × List UInt8
  | [] => (none, [])
  | .fail failure :: _ => (some failure, [])
  | act :: script => ((outcome script).1, act.bytes ++ (outcome script).2)

def Sink.fit (room : Option Nat) (outcome : Option Failure × List UInt8) : Option Failure × List UInt8 :=
  match room with
  | none => outcome
  | some room =>
    (if outcome.2.length ≤ room then outcome.1 else some .sinkFull, outcome.2.take room)

/-- The bytes of a text as a sink takes them. -/
private theorem toList_toUTF8 (text : String) : text.toUTF8.data.toList = Source.encode text.toList := by
  rw [String.toUTF8, ← String.utf8Encode_toList, List.utf8Encode, List.toList_data_toByteArray]
  rfl

private theorem size_toUTF8 (text : String) : text.toUTF8.size = (Source.encode text.toList).length := by
  rw [← toList_toUTF8]
  rfl

theorem Script.Unfailing.append {a b : Script} (first : a.Unfailing) (second : b.Unfailing) :
    Script.Unfailing (a ++ b) := by
  intro failure mem
  obtain mem | mem := List.mem_append.1 mem
  · exact first failure mem
  · exact second failure mem

theorem Script.Unfailing.note {script : Script} (unfailing : script.Unfailing) (entry : Log.Entry) :
    Script.Unfailing (.note entry :: script) := by
  intro failure mem
  obtain other | mem := List.mem_cons.1 mem
  · cases other
  · exact unfailing failure mem

theorem Script.Unfailing.flatMap {α : Type} {f : α → Script} (all : ∀ a, (f a).Unfailing) (items : List α) :
    Script.Unfailing (items.flatMap f) := by
  intro failure mem
  obtain ⟨a, -, mem⟩ := List.mem_flatMap.1 mem
  exact all a failure mem

namespace Sink
variable {failure : Option Failure} {bytes rest : List UInt8}

/-- What fits leaves less room for the rest. -/
private theorem fit_append {room : Nat} (fits : bytes.length ≤ room) :
    fit (some room) (failure, bytes ++ rest) =
      ((fit (some (room - bytes.length)) (failure, rest)).1,
        bytes ++ (fit (some (room - bytes.length)) (failure, rest)).2) := by
  have enough : (bytes ++ rest).length ≤ room ↔ rest.length ≤ room - bytes.length := by
    rw [List.length_append]
    omega
  simp only [fit, enough, List.take_append, List.take_of_length_le fits]

/-- What does not fit is taken as far as there is room, and nothing behind it. -/
private theorem fit_append_full {room : Nat} (long : room < bytes.length) :
    fit (some room) (failure, bytes ++ rest) = (some .sinkFull, bytes.take room) := by
  have more : ¬ (bytes ++ rest).length ≤ room := by
    rw [List.length_append]
    omega
  simp only [fit, if_neg more, List.take_append_of_le_length (Nat.le_of_lt long)]

private theorem fit_nil (room : Option Nat) (failure : Option Failure) : fit room (failure, []) = (failure, []) := by
  cases room <;> simp [fit]

end Sink

namespace Console
variable {room : Nat} {taken : ByteArray} {log : List Log.Entry} {text : String}

private theorem step_write_fits (fits : (Source.encode text.toList).length ≤ room) :
    step ⟨⟨some room, taken⟩, log⟩ (.write text) =
      (none, ⟨⟨some (room - (Source.encode text.toList).length), taken ++ text.toUTF8⟩, log⟩) := by
  rw [step, Sink.write]
  simp only [size_toUTF8, if_pos fits, if_true]

private theorem step_write_full (long : room < (Source.encode text.toList).length) :
    step ⟨⟨some room, taken⟩, log⟩ (.write text) =
      (some .sinkFull, ⟨⟨some 0, taken ++ text.toUTF8.extract 0 room⟩, log⟩) := by
  rw [step, Sink.write]
  simp only [size_toUTF8, if_neg (Nat.not_le_of_lt long), Bool.false_eq_true, if_false]

/-- Performing a script brings what is left of its outcome. -/
private theorem perform_outcome (console : Console) (script : Script) :
    let left := Sink.fit console.sink.room (Script.outcome script)
    (console.perform script).1 = left.1 ∧
      (console.perform script).2.sink.taken.data.toList = console.sink.taken.data.toList ++ left.2 := by
  induction script generalizing console with
  | nil =>
    rw [Script.outcome, Sink.fit_nil]
    exact ⟨rfl, (List.append_nil _).symm⟩
  | cons act script ih =>
    cases act with
    | note entry => exact ih { console with log := entry :: console.log }
    | fail failure =>
      rw [Script.outcome, Sink.fit_nil]
      exact ⟨rfl, (List.append_nil _).symm⟩
    | write text =>
      obtain ⟨⟨room, taken⟩, log⟩ := console
      have outcome : Script.outcome (.write text :: script) =
          ((Script.outcome script).1, Source.encode text.toList ++ (Script.outcome script).2) := rfl
      cases room with
      | none =>
        obtain ⟨failure, bytes⟩ := ih ⟨⟨none, taken ++ text.toUTF8⟩, log⟩
        refine ⟨failure, bytes.trans ?_⟩
        rw [outcome]
        simp only [Sink.fit, ByteArray.data_append, Array.toList_append, toList_toUTF8, List.append_assoc]
      | some room =>
        rw [outcome, perform]
        by_cases fits : (Source.encode text.toList).length ≤ room
        · rw [Sink.fit_append fits, step_write_fits fits]
          obtain ⟨failure, bytes⟩ :=
            ih ⟨⟨some (room - (Source.encode text.toList).length), taken ++ text.toUTF8⟩, log⟩
          refine ⟨failure, bytes.trans ?_⟩
          rw [ByteArray.data_append, Array.toList_append, toList_toUTF8, List.append_assoc]
        · have long : room < (Source.encode text.toList).length := Nat.lt_of_not_le fits
          rw [Sink.fit_append_full long, step_write_full long]
          refine ⟨rfl, ?_⟩
          rw [ByteArray.data_append, Array.toList_append, ByteArray.data_extract, Array.toList_extract,
            toList_toUTF8]
          rfl

end Console

namespace Script

/-- Where there is room for everything, the outcome is all that comes of a script. -/
theorem output_eq_outcome (script : Script) : output script = outcome script := by
  obtain ⟨failure, bytes⟩ := (Console.ofRoom none).perform_outcome script
  exact Prod.ext failure bytes

/-- Where there is not, the beginning of it is. -/
theorem outputWithin_eq (room : Nat) (script : Script) :
    outputWithin room script = Sink.fit (some room) (output script) := by
  obtain ⟨failure, bytes⟩ := (Console.ofRoom (some room)).perform_outcome script
  rw [output_eq_outcome]
  exact Prod.ext failure bytes

/-- Behind steps that do not fail the others go on. -/
theorem outcome_append {a : Script} (unfailing : a.Unfailing) (b : Script) :
    outcome (a ++ b) = ((outcome b).1, a.flatMap Act.bytes ++ (outcome b).2) := by
  induction a with
  | nil => rfl
  | cons act a ih =>
    have others : Script.Unfailing a := fun failure mem => unfailing failure (List.mem_cons_of_mem act mem)
    cases act with
    | fail failure => exact absurd List.mem_cons_self (unfailing failure)
    | write text =>
      rw [List.cons_append, outcome, ih others, List.flatMap_cons, List.append_assoc]
      exact nofun
    | note entry =>
      rw [List.cons_append, outcome, ih others, List.flatMap_cons, List.append_assoc]
      exact nofun

/-- A script without failures ends without one, and everything is written. -/
theorem output_eq {script : Script} (unfailing : script.Unfailing) :
    script.output = (none, script.flatMap Act.bytes) := by
  have all := outcome_append unfailing []
  rwa [List.append_nil, outcome, List.append_nil, ← output_eq_outcome] at all

end Script
end LittleScript

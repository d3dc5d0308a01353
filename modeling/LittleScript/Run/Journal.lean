import LittleScript.Diagnostic
import LittleScript.Syntax.Link

/-!
The journal of a run: what a parser began, ended, reported, kept and moved to, in order. Diagnostics
and log lines are read off it.
-/

namespace LittleScript

inductive Event where
  /-- A statement rule starts on `token`, with `peek` behind it. -/
  | statementBegun (token peek : Token)
  /-- The statement rule that started on `token` ends, with or without a statement. -/
  | statementEnded (token : Token) (built : Bool)
  /-- An expression rule starts on `token`. -/
  | expressionBegun (token : Token) (precedence : Precedence)
  | diagnosed (diagnostic : Diagnostic)
  /-- A statement becomes part of the program. -/
  | kept (statement : Statement)
  /-- The token becomes the current one. -/
  | moved (token : Token)
  | levelTaken
  | levelsReturned (count : Nat)

def Event.diagnostic? : Event → Option Diagnostic
  | .diagnosed diagnostic => some diagnostic
  | _ => none

/-- Entries, latest first. -/
structure Journal where
  latestFirst : List Event

namespace Journal

def empty : Journal := ⟨[]⟩

def record (journal : Journal) (event : Event) : Journal := ⟨event :: journal.latestFirst⟩

def events (journal : Journal) : List Event := journal.latestFirst.reverse

def diagnostics (journal : Journal) : List Diagnostic :=
  journal.events.filterMap Event.diagnostic?

def messages (journal : Journal) : List String := journal.diagnostics.map Diagnostic.message

@[simp] theorem events_record (journal : Journal) (event : Event) :
    (journal.record event).events = journal.events ++ [event] := by
  simp [events, record]

theorem diagnostics_record (journal : Journal) (event : Event) :
    (journal.record event).diagnostics = journal.diagnostics ++ event.diagnostic?.toList := by
  cases h : event.diagnostic? <;> simp [diagnostics, h]

end Journal
end LittleScript

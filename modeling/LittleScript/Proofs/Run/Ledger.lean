import LittleScript.Proofs.Run.Course

/-!
Activations of the statement rule, as a journal tells them. A diagnostic belongs to the innermost
activation that is running when it is recorded.
-/

namespace LittleScript

/-- An activation that has ended: where it started, whether it built a statement, what it recorded
itself, and how many activations were running around it. What activations inside it recorded is not among
its own diagnostics. -/
structure Activation where
  token : Token
  built : Bool
  own : List Diagnostic
  depth : Nat

namespace Activation

/-- A statement should have been built, or a character reported, and none was built. -/
def lost (activation : Activation) : Bool :=
  activation.token.kind ∈ Kind.answered && !activation.built

def outcome (activation : Activation) : Token × Bool := (activation.token, activation.built)

def Fair (activation : Activation) : Prop := activation.own.length = if activation.lost then 1 else 0

end Activation

/-- Activations by their state. Those that run are listed innermost first, with the diagnostics they
have recorded so far; those that have ended, latest first. -/
structure Ledger where
  running : List (Token × List Diagnostic)
  ended : List Activation
  /-- The diagnostics recorded while no activation was running. -/
  outside : List Diagnostic

namespace Ledger

def empty : Ledger := ⟨[], [], []⟩

def enter (ledger : Ledger) : Event → Ledger
  | .statementBegun token _ => { ledger with running := (token, []) :: ledger.running }
  | .statementEnded _ built =>
    match ledger.running with
    | [] => ledger
    | (token, own) :: outer =>
      { ledger with running := outer, ended := ⟨token, built, own, outer.length⟩ :: ledger.ended }
  | .diagnosed diagnostic =>
    match ledger.running with
    | [] => { ledger with outside := ledger.outside ++ [diagnostic] }
    | (token, own) :: outer => { ledger with running := (token, own ++ [diagnostic]) :: outer }
  | _ => ledger

def diagnostics (ledger : Ledger) : List Diagnostic :=
  ledger.outside ++ (ledger.running.flatMap Prod.snd ++ ledger.ended.flatMap Activation.own)

def tokens (ledger : Ledger) : List Token :=
  ledger.running.map Prod.fst ++ ledger.ended.map Activation.token

/-- A diagnostic is entered once, and none is lost when an activation ends. -/
private theorem diagnostics_enter (ledger : Ledger) (event : Event) :
    (ledger.enter event).diagnostics.Perm (ledger.diagnostics ++ event.diagnostic?.toList) := by
  obtain ⟨running, ended, outside⟩ := ledger
  rw [List.perm_iff_count]
  intro d
  cases event with
  | diagnosed diagnostic =>
    cases running with
    | nil =>
      simp only [enter, diagnostics, Event.diagnostic?, Option.toList, List.count_append]
      omega
    | cons first outer =>
      simp only [enter, diagnostics, Event.diagnostic?, Option.toList, List.count_append, List.flatMap_cons]
      omega
  | statementEnded =>
    cases running with
    | nil => exact (congrArg (List.count d) (List.append_nil _)).symm
    | cons first outer =>
      simp only [enter, diagnostics, Event.diagnostic?, Option.toList, List.count_append, List.flatMap_cons,
        List.count_nil]
      omega
  | _ => exact (congrArg (List.count d) (List.append_nil _)).symm

end Ledger

def Event.begun? : Event → Option Token
  | .statementBegun token _ => some token
  | _ => none

/-- An activation is entered with its token once, and stays. -/
private theorem Ledger.tokens_enter (ledger : Ledger) (event : Event) :
    (ledger.enter event).tokens.Perm (ledger.tokens ++ event.begun?.toList) := by
  obtain ⟨running, ended, outside⟩ := ledger
  rw [List.perm_iff_count]
  intro token
  cases event with
  | statementBegun =>
    simp only [enter, tokens, Event.begun?, Option.toList, List.map_cons, List.count_append, List.count_cons,
      List.count_nil]
    omega
  | statementEnded =>
    cases running with
    | nil => exact (congrArg (List.count token) (List.append_nil _)).symm
    | cons first outer =>
      simp only [enter, tokens, Event.begun?, Option.toList, List.map_cons, List.count_append,
        List.count_cons, List.count_nil]
      omega
  | diagnosed =>
    cases running with
    | nil => exact (congrArg (List.count token) (List.append_nil _)).symm
    | cons first outer => exact (congrArg (List.count token) (List.append_nil _)).symm
  | _ => exact (congrArg (List.count token) (List.append_nil _)).symm

namespace Journal

def ledger (journal : Journal) : Ledger := journal.events.foldl Ledger.enter .empty

def activations (journal : Journal) : List Activation := journal.ledger.ended.reverse

def begun (journal : Journal) : List Token := journal.events.filterMap Event.begun?

theorem ledger_record (journal : Journal) (event : Event) :
    (journal.record event).ledger = journal.ledger.enter event := by
  simp [ledger]

theorem begun_record (journal : Journal) (event : Event) :
    (journal.record event).begun = journal.begun ++ event.begun?.toList := by
  cases h : event.begun? <;> simp [begun, h]

/-- A property of all journals follows from the empty one and one entry more. -/
private theorem induction {P : Journal → Prop} (empty : P .empty)
    (record : ∀ journal event, P journal → P (journal.record event)) (journal : Journal) : P journal := by
  obtain ⟨latest⟩ := journal
  induction latest with
  | nil => exact empty
  | cons event latest ih => exact record ⟨latest⟩ event ih

/-- Every diagnostic is in the ledger exactly once. -/
theorem diagnostics_ledger (journal : Journal) :
    journal.ledger.diagnostics.Perm journal.diagnostics := by
  induction journal using Journal.induction with
  | empty => exact .nil
  | record journal event ih =>
    rw [ledger_record, diagnostics_record]
    exact (Ledger.diagnostics_enter _ _).trans (ih.append_right _)

/-- Every activation that was started is in the ledger exactly once. -/
theorem tokens_ledger (journal : Journal) : journal.ledger.tokens.Perm journal.begun := by
  induction journal using Journal.induction with
  | empty => exact .nil
  | record journal event ih =>
    rw [ledger_record, begun_record]
    exact (Ledger.tokens_enter _ _).trans (ih.append_right _)

end Journal

end LittleScript

import LittleScript.Proofs.Run.Joining

/-!
Parsers that share one journal, each called any number of times. Every text is parsed as if it were the only
one, and a parser that has come to its end finds nothing more.
-/

namespace LittleScript

open Run

structure Call where
  program : Program
  collected : List Diagnostic

def Run.State.calls (limit : Nat) : Nat → State → List Call × State
  | 0, s => ([], s)
  | count + 1, s =>
    let (program, t) := s.finishProgram limit
    let (later, u) := t.calls limit count
    (⟨program, t.journal.diagnostics⟩ :: later, u)

/-- The calls of several parsers, one after the other. Each has a text and a number of calls. All of them
add to the same journal. -/
def sharedCalls (limit : Nat) : List (String × Nat) → Journal → List Call
  | [], _ => []
  | (text, count) :: steps, journal =>
    let (calls, s) := (State.start (.ofText text) journal).calls limit count
    calls ++ sharedCalls limit steps s.journal

/-- What the calls come to if texts and calls do not interfere: the first one for a text finds its program
and adds its diagnostics to those collected before, and all further ones find nothing and add nothing. -/
def separateCalls : List (String × Nat) → List Diagnostic → List Call
  | [], _ => []
  | (_, 0) :: steps, collected => separateCalls steps collected
  | (text, further + 1) :: steps, collected =>
    let all := collected ++ (parse text).diagnostics
    ⟨(parse text).program, all⟩ :: List.replicate further ⟨[], all⟩ ++ separateCalls steps all

namespace Run.State
variable {limit : Nat} {s : State}

/-- A journal that holds earlier entries changes nothing but that they stand in front. -/
private theorem finishProgram_start (limit : Nat) (stream : TokenStream) (journal : Journal) :
    ((start stream journal).finishProgram limit).1 = (Parsed.ofStream limit stream).program ∧
      ((start stream journal).finishProgram limit).2.journal.diagnostics =
        journal.diagnostics ++ (Parsed.ofStream limit stream).diagnostics := by
  let c : Surroundings := ⟨id, journal.diagnostics, none⟩
  have beside : (start stream .empty).Beside c (start stream journal) := by
    refine ⟨?_, fun _ => rfl, fun more => absurd rfl more, rfl, (List.append_nil _).symm⟩
    exact ((List.append_nil _).trans (List.map_id _)).symm
  obtain ⟨found, reported⟩ := goOn_beside beside rfl limit []
  rw [Program.relocate_id] at found
  have diagnostics := reported.diagnostics
  rw [Diagnostic.map_relocate_id] at diagnostics
  exact ⟨found, diagnostics⟩

/-- A run that is at its end stays there. -/
private theorem calls_of_ended (ended : s.tokens = []) (count : Nat) :
    s.calls limit count = (List.replicate count ⟨[], s.journal.diagnostics⟩, s) := by
  have stays : s.finishProgram limit = ([], s) := Rule.sequenceFrom_stops (.inl ended)
  induction count with
  | zero => rfl
  | succ count ih =>
    rw [calls, stays]
    dsimp only
    rw [ih, List.replicate_succ]

/-- The first call finds everything, whatever it reports, and leaves nothing for the further ones. -/
private theorem calls_succ (limit further : Nat) (s : State) :
    s.calls limit (further + 1) =
      (⟨(s.finishProgram limit).1, (s.finishProgram limit).2.journal.diagnostics⟩ ::
        List.replicate further ⟨[], (s.finishProgram limit).2.journal.diagnostics⟩,
        (s.finishProgram limit).2) := by
  have ended := (s.course_finishProgram limit).2
  rw [calls]
  dsimp only
  rw [calls_of_ended ended further]

end Run.State

/-- Parsers that share a journal do not interfere: whatever it held before, and whatever was wrong in other
texts, the first call for a text finds the program of that text alone and adds its diagnostics behind all
others, which stay as they were. Further calls find an empty program and add nothing. -/
theorem sharedCalls_eq_separateCalls (steps : List (String × Nat)) (journal : Journal) :
    sharedCalls levelLimit steps journal = separateCalls steps journal.diagnostics := by
  induction steps generalizing journal with
  | nil => rfl
  | cons step steps ih =>
    obtain ⟨text, count⟩ := step
    cases count with
    | zero => exact ih journal
    | succ further =>
      obtain ⟨program, diagnostics⟩ := State.finishProgram_start levelLimit (.ofText text) journal
      rw [sharedCalls, State.calls_succ, separateCalls]
      dsimp only
      rw [ih, program, diagnostics]
      rfl

end LittleScript

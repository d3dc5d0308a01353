import LittleScript.Proofs.Shell.Listing

/-!
A whole run of the shell, for any bytes. It answers line by line until a line is not in UTF-8, and where its
output finds no more room it stops.
-/

namespace LittleScript

namespace Source

/-- The texts of the lines in front of the first that is not in UTF-8. -/
def readable (lines : List (List UInt8)) : List String :=
  (lines.takeWhile fun line => (decode? line).isSome).filterMap decode?

variable {line : List UInt8} {lines : List (List UInt8)} {text : String}

private theorem readable_cons_some (read : decode? line = some text) :
    readable (line :: lines) = text :: readable lines := by
  rw [readable, List.takeWhile_cons_of_pos (by rw [read, Option.isSome_some]), List.filterMap_cons_some read]
  rfl

private theorem readable_cons_none (unread : decode? line = none) : readable (line :: lines) = [] := by
  rw [readable, List.takeWhile_cons_of_neg (by simp [unread]), List.filterMap_nil]

end Source

namespace Printer

private theorem line_unfailing (printer : Printer) (role : Role) (text : String) :
    Script.Unfailing (printer.line role text) :=
  (printer.piece_unfailing role text).append fun failure => by simp

theorem parsed_unfailing (printer : Printer) (parsed : Parsed) : Script.Unfailing (printer.parsed parsed) := by
  refine .append ?_ (.flatMap (printer.line_unfailing .error) _)
  split
  · exact fun failure => List.not_mem_nil
  · exact printer.line_unfailing .success _

end Printer

namespace Shell

theorem answer_unfailing (shell : Shell) (text : String) : Script.Unfailing (shell.answer text) := by
  obtain ⟨mode, printer⟩ := shell
  cases mode with
  | tokens => exact printer.tokens_unfailing text
  | tree =>
    have notes (events : List Event) :
        Script.Unfailing (events.map fun event => .note (.parsing event)) := fun failure => by simp
    exact (notes _).append (printer.parsed_unfailing _)

/-- What is noted in the log is not part of the output. -/
theorem bytes_answer (shell : Shell) (text : String) :
    (shell.answer text).flatMap Act.bytes =
      match shell.mode with
      | .tokens => (shell.printer.tokens text).flatMap Act.bytes
      | .tree => (shell.printer.parsed (parse text)).flatMap Act.bytes := by
  obtain ⟨mode, printer⟩ := shell
  cases mode with
  | tokens => rfl
  | tree =>
    have silent (events : List Event) :
        (events.map fun event => Act.note (.parsing event)).flatMap Act.bytes = [] := by
      simp [List.flatMap_map, Act.bytes]
    rw [answer, List.flatMap_append, silent, List.nil_append]

/-- A line is answered by a listing of its tokens, or by the report on the text as a program. -/
private theorem output_answer (shell : Shell) (text : String) :
    (shell.answer text).output.2 =
      match shell.mode with
      | .tokens => (shell.printer.tokens text).output.2
      | .tree => (shell.printer.parsed (parse text)).output.2 := by
  have bytes := shell.bytes_answer text
  rw [Script.output_eq (shell.answer_unfailing text), bytes]
  split
  · rw [Script.output_eq (shell.printer.tokens_unfailing text)]
  · rw [Script.output_eq (shell.printer.parsed_unfailing _)]

def turn (shell : Shell) (text : String) : List UInt8 :=
  shell.printer.prompt.output.2 ++ (shell.answer text).output.2

/-- A conversation answers the lines up to the first that is not in UTF-8, and ends well if there is none. -/
theorem output_converse (shell : Shell) (lines : List (List UInt8)) :
    (shell.converse lines).output =
      (if ∀ line ∈ lines, (Source.decode? line).isSome then none else some .notText,
        (Source.readable lines).flatMap shell.turn ++ shell.printer.prompt.output.2) := by
  have unfailing : shell.printer.prompt.Unfailing := shell.printer.piece_unfailing .prompt _
  have prompt : shell.printer.prompt.output = (none, shell.printer.prompt.flatMap Act.bytes) :=
    Script.output_eq unfailing
  induction lines with
  | nil =>
    simp only [converse, List.flatMap_nil, List.nil_append, prompt]
    rfl
  | cons line lines ih =>
    have step : shell.converse (line :: lines) =
        shell.printer.prompt ++ (shell.respond line ++ shell.converse lines) := by
      simp only [converse, List.flatMap_cons, List.append_assoc]
    rw [Script.output_eq_outcome, step, Script.outcome_append unfailing]
    cases read : Source.decode? line with
    | none =>
      have respond : shell.respond line = [.fail .notText] := by rw [Shell.respond, read]
      rw [respond, Source.readable_cons_none read, prompt]
      simp [Script.outcome, read]
    | some text =>
      have respond : shell.respond line = .note (.lineRead text shell.mode) :: shell.answer text := by
        rw [Shell.respond, read]
      have answer := shell.answer_unfailing text
      have bytes : (shell.respond line).flatMap Act.bytes = (shell.answer text).output.2 := by
        rw [respond, Script.output_eq answer]
        rfl
      rw [Script.outcome_append (respond ▸ answer.note _), bytes, ← Script.output_eq_outcome, ih,
        Source.readable_cons_some read, prompt]
      simp only [turn, prompt, List.forall_mem_cons, read, Option.isSome_some, true_and, List.flatMap_cons,
        List.append_assoc]

/-- The shell delivers the beginning of what it would write, as much as there is room for. It reports a full output
exactly if that is not all, and otherwise it ends as it would with room for everything: in front of the first line
that is not in UTF-8, or well behind the last line. It would write a prompt and a listing of the tokens, or a prompt
and a report, for each line in front of that one, and a prompt behind them. -/
theorem start_within_room (shell : Shell) (input : List UInt8) (room : Nat) :
    let lines := Source.lines input
    let prompt := shell.printer.prompt.output.2
    let answer := fun text : String =>
      match shell.mode with
      | .tokens => (shell.printer.tokens text).output.2
      | .tree => (shell.printer.parsed (parse text)).output.2
    let whole := (shell.start input).output
    let delivered := (shell.start input).outputWithin room
    delivered.2 = whole.2.take room ∧
      (delivered.1 = some .sinkFull ↔ room < whole.2.length) ∧
      (delivered.1 = some .sinkFull ∨ delivered = whole) ∧
      whole.1 = (if ∀ line ∈ lines, (Source.decode? line).isSome then none else some .notText) ∧
      whole.2 = (Source.readable lines).flatMap (fun text => prompt ++ answer text) ++ prompt := by
  intro lines prompt answer whole delivered
  have cut : delivered = Sink.fit (some room) whole := Script.outputWithin_eq room (shell.start input)
  have all : whole = (_, _) := shell.output_converse lines
  have ending := congrArg Prod.fst all
  have proper : whole.1 ≠ some .sinkFull := by
    rw [ending]
    dsimp only
    split <;> simp
  rw [cut, Sink.fit]
  have turn : shell.turn = fun text => prompt ++ answer text :=
    funext fun text => congrArg (prompt ++ ·) (shell.output_answer text)
  rw [turn] at all
  refine ⟨rfl, ?_, ?_, ending, congrArg Prod.snd all⟩
  · by_cases enough : whole.2.length ≤ room
    · simp only [if_pos enough, proper, false_iff, Nat.not_lt]
      exact enough
    · simp only [if_neg enough, true_iff]
      exact Nat.lt_of_not_le enough
  · by_cases enough : whole.2.length ≤ room
    · right
      simp only [if_pos enough, List.take_of_length_le enough]
    · left
      simp only [if_neg enough]

/-- The second line is not in UTF-8, and there is no room for all of the first token's line. -/
theorem start_within_room_second_unreadable :
    let script := start ⟨.tokens, ⟨false⟩⟩ [120, 10, 255]
    script.output = (some .notText, ">> Identifier \"x\"\n>> ".toUTF8.data.toList) ∧
      script.outputWithin 5 = (some .sinkFull, ">> Id".toUTF8.data.toList) := by
  intro script
  have whole : script.output = (some .notText, ">> Identifier \"x\"\n>> ".toUTF8.data.toList) := by decide +kernel
  obtain ⟨front, full, -⟩ := start_within_room ⟨.tokens, ⟨false⟩⟩ [120, 10, 255] 5
  have long : 5 < script.output.2.length := by
    rw [whole]
    decide
  have beginning : script.output.2.take 5 = ">> Id".toUTF8.data.toList := by
    rw [whole]
    decide
  exact ⟨whole, Prod.ext (full.2 long) (front.trans beginning)⟩

end Shell
end LittleScript

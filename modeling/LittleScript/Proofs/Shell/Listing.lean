import LittleScript.Proofs.Shell.Output
import LittleScript.Proofs.Token.Joining
import LittleScript.Shell.Session

/-!
Listing the tokens of a text line by line. The listings of the lines are together that of the text, although
the endings of the lines are not read.
-/

namespace LittleScript

namespace Printer

/-- A token is listed the same wherever it stands. -/
theorem token_relocate (printer : Printer) (f : Location → Location) (token : Token) :
    printer.token (token.relocate f) = printer.token token := rfl

/-- Texts with a line feed between them are listed one behind the other. -/
private theorem tokens_join (printer : Printer) (front back : List Char) :
    printer.tokens (String.ofList (front ++ '\n' :: back)) =
      printer.tokens (String.ofList front) ++ printer.tokens (String.ofList back) := by
  have joined : String.ofList (front ++ '\n' :: back) = String.ofList front ++ "\n" ++ String.ofList back := by
    rw [List.append_cons, String.ofList_append, String.ofList_append]
  rw [tokens, joined, TokenStream.ofText_join, List.flatMap_append, List.flatMap_map]
  simp only [token_relocate]
  rfl

/-- The carriage return of a line's ending is not listed. -/
private theorem tokens_withoutReturn (printer : Printer) (line : List Char) :
    printer.tokens (String.ofList (Source.withoutReturn line)) = printer.tokens (String.ofList line) := by
  rw [Source.withoutReturn]
  split
  · rename_i returned
    obtain ⟨front, rfl⟩ := List.getLast?_eq_some_iff.1 returned
    rw [List.dropLast_concat, tokens, tokens, TokenStream.tokens_ofText_blank rfl]
  · rfl

/-- A text is listed line by line. -/
private theorem tokens_textLines (printer : Printer) (text : String) :
    printer.tokens text = (Source.textLines text).flatMap printer.tokens := by
  suffices all : ∀ text : List Char, printer.tokens (String.ofList text) =
      (Source.textLines (String.ofList text)).flatMap printer.tokens by
    have own := all text.toList
    rwa [String.ofList_toList] at own
  intro text
  induction text using Source.feed_induction with
  | last text free =>
    rw [Source.textLines_last free]
    cases text with
    | nil =>
      rw [tokens, TokenStream.ofText, TokenStream.ofLexer, Lexer.collect_none rfl]
      rfl
    | cons c text => exact (List.append_nil _).symm
  | feed front back free ih =>
    rw [Source.textLines_feed free, List.flatMap_cons, tokens_withoutReturn, tokens_join, ih]

theorem piece_unfailing (printer : Printer) (role : Role) (text : String) :
    Script.Unfailing (printer.piece role text) := by
  intro failure
  cases colored : printer.colored <;> simp [piece, colored]

private theorem token_unfailing (printer : Printer) (token : Token) : Script.Unfailing (printer.token token) :=
  (printer.piece_unfailing _ _).append fun failure => by simp

theorem tokens_unfailing (printer : Printer) (text : String) : Script.Unfailing (printer.tokens text) :=
  .flatMap printer.token_unfailing _

end Printer

namespace Shell

/-- The shell's steps for the bytes of a text, which are those for its lines. -/
private theorem start_encode (printer : Printer) (text : String) :
    start ⟨.tokens, printer⟩ (Source.encode text.toList) =
      (Source.textLines text).flatMap
        (fun line => printer.prompt ++ .note (.lineRead line .tokens) :: printer.tokens line) ++
      printer.prompt := by
  have respond (line : String) : respond ⟨.tokens, printer⟩ (Source.encode line.toList) =
      .note (.lineRead line .tokens) :: printer.tokens line := by
    rw [Shell.respond, Source.decode?_encode, String.ofList_toList]
    rfl
  rw [start, converse, Source.lines_encode, List.flatMap_map]
  simp only [respond]

private theorem start_unfailing (printer : Printer) (text : String) :
    Script.Unfailing (start ⟨.tokens, printer⟩ (Source.encode text.toList)) := by
  have prompt : printer.prompt.Unfailing := printer.piece_unfailing .prompt _
  have answer (line : String) :
      Script.Unfailing (.note (.lineRead line .tokens) :: printer.tokens line) :=
    (printer.tokens_unfailing line).note _
  rw [start_encode]
  exact (Script.Unfailing.flatMap (fun line => prompt.append (answer line)) _).append prompt

/-- In token mode the shell never fails on its own account. It answers the lines of a text one by one with a
prompt in front of each and one at the end, and the answers are together the listing of the whole text. -/
theorem output_start_tokens {input : List UInt8} {text : String} (valid : Source.decode? input = some text)
    (printer : Printer) :
    let lines := Source.textLines text
    let prompt := (printer.prompt).output.2
    let dump := fun line => (printer.tokens line).output.2
    (Source.lines input).map Source.decode? = lines.map some ∧
      (start ⟨.tokens, printer⟩ input).output =
        (none, lines.flatMap (fun line => prompt ++ dump line) ++ prompt) ∧
      (printer.tokens text).output = (none, lines.flatMap dump) := by
  obtain rfl := Source.eq_encode_of_decode? valid
  have prompt : (printer.prompt).output = _ := Script.output_eq (printer.piece_unfailing .prompt _)
  have dump (line : String) : (printer.tokens line).output = _ :=
    Script.output_eq (printer.tokens_unfailing line)
  refine ⟨?_, ?_, ?_⟩
  · rw [Source.lines_encode, List.map_map]
    apply List.map_congr_left
    intro line _
    exact (Source.decode?_encode line.toList).trans (congrArg some String.ofList_toList)
  · rw [Script.output_eq (start_unfailing printer text), start_encode, List.flatMap_append, List.flatMap_assoc]
    simp only [prompt, dump, List.flatMap_append, List.flatMap_cons, Act.bytes, List.nil_append]
  · simp only [dump]
    rw [printer.tokens_textLines text, List.flatMap_assoc]

/-- A carriage return inside of a line and one behind the last line are no endings. -/
theorem output_start_tokens_endings :
    let input : List UInt8 := [120, 13, 10, 10, 53, 13, 195, 169, 13]
    let prompt := (Printer.prompt ⟨true⟩).output.2
    let dump := fun line => (Printer.tokens ⟨true⟩ line).output.2
    Source.decode? input = some "x\r\n\n5\ré\r" ∧ Source.textLines "x\r\n\n5\ré\r" = ["x", "", "5\ré\r"] ∧
      (start ⟨.tokens, ⟨true⟩⟩ input).output =
        (none, prompt ++ dump "x" ++ (prompt ++ dump "" ++ (prompt ++ dump "5\ré\r")) ++ prompt) := by
  have valid : Source.decode? [120, 13, 10, 10, 53, 13, 195, 169, 13] = some "x\r\n\n5\ré\r" := by
    decide +kernel
  have lines : Source.textLines "x\r\n\n5\ré\r" = ["x", "", "5\ré\r"] := by decide +kernel
  obtain ⟨-, shown, -⟩ := output_start_tokens valid ⟨true⟩
  simp only [lines, List.flatMap_cons, List.flatMap_nil, List.append_nil] at shown
  exact ⟨valid, lines, shown⟩

end Shell
end LittleScript

import LittleScript.Proofs.Shell.Conversation
import LittleScript.Proofs.Text.Control

/-!
Colour is all that coloured output has more than plain output, and plain output has no control characters apart
from the line feeds behind its lines. So nothing in a source text can reach a terminal as a control sequence.
-/

namespace LittleScript

namespace Color

mutual

/-- What is left of some bytes without the sequences from an escape character with a bracket behind it to the
next `m`. -/
def erase : List UInt8 → List UInt8
  | 27 :: 91 :: rest => eraseInside rest
  | byte :: rest => byte :: erase rest
  | [] => []

def eraseInside : List UInt8 → List UInt8
  | 109 :: rest => erase rest
  | _ :: rest => eraseInside rest
  | [] => []

end

private def ErasesTo (colored plain : List UInt8) : Prop := ∀ rest, erase (colored ++ rest) = plain ++ erase rest

private theorem eraseInside_append {inside : List UInt8} (unclosed : 109 ∉ inside) (rest : List UInt8) :
    eraseInside (inside ++ 109 :: rest) = erase rest := by
  induction inside with
  | nil => rfl
  | cons byte inside ih =>
    rw [List.mem_cons, not_or] at unclosed
    obtain ⟨other, later⟩ := unclosed
    rw [List.cons_append, eraseInside, ih later]
    exact fun same => other same.symm

namespace ErasesTo
variable {a b c d : List UInt8}

private theorem append (first : ErasesTo a b) (second : ErasesTo c d) : ErasesTo (a ++ c) (b ++ d) := by
  intro rest
  rw [List.append_assoc, first, second, List.append_assoc]

private theorem whole (h : ErasesTo a b) : erase a = b := by
  have all := h []
  rwa [List.append_nil, erase, List.append_nil] at all

/-- Bytes without an escape character stay as they are. -/
private theorem self {bytes : List UInt8} (free : 27 ∉ bytes) : ErasesTo bytes bytes := by
  intro rest
  induction bytes with
  | nil => rfl
  | cons byte bytes ih =>
    rw [List.mem_cons, not_or] at free
    obtain ⟨other, later⟩ := free
    rw [List.cons_append, erase, ih later, List.cons_append]
    exact fun _ same => absurd same.symm other

private theorem text {chars : List Char} (free : '\x1b' ∉ chars) :
    ErasesTo (Source.encode chars) (Source.encode chars) :=
  self fun mem => free ((Source.mem_encode (by decide) (by decide)).1 mem)

end ErasesTo

/-- Nothing is left of the beginning of a colour. -/
private theorem erasesTo_start (color : Color) : ErasesTo (Source.encode color.start.toList) [] := by
  intro rest
  let inside := "38;2;".toList ++ (toString color.red).toList ++ ";".toList ++ (toString color.green).toList ++
    ";".toList ++ (toString color.blue).toList
  have opening : "\x1b[38;2;".toList = ['\x1b', '['] ++ "38;2;".toList := by decide
  have closing : "m".toList = ['m'] := rfl
  have spelled : color.start.toList = ['\x1b', '['] ++ (inside ++ ['m']) := by
    simp only [start, String.toList_append, opening, closing, inside, List.append_assoc]
  have unclosed : 'm' ∉ inside := by
    simp only [inside, List.mem_append, not_or]
    have number (n : Nat) : 'm' ∉ (toString n).toList := fun mem =>
      absurd (isDigit_of_mem_toString mem) (by decide)
    exact ⟨⟨⟨⟨⟨by decide, number _⟩, by decide⟩, number _⟩, by decide⟩, number _⟩
  have bytes : Source.encode color.start.toList = 27 :: 91 :: (Source.encode inside ++ [109]) := by
    rw [spelled, Source.encode_append, Source.encode_append]
    rfl
  have free : 109 ∉ Source.encode inside := fun mem => unclosed ((Source.mem_encode (by decide) (by decide)).1 mem)
  rw [bytes, List.cons_append, List.cons_append, erase, List.append_assoc, List.singleton_append,
    eraseInside_append free]
  rfl

/-- Nothing is left of the end of colours. -/
private theorem erasesTo_stop : ErasesTo (Source.encode stop.toList) [] := by
  intro rest
  rfl

end Color

private theorem ControlFree.escape_not_mem {text : List Char} (free : ControlFree text) : '\x1b' ∉ text :=
  free.not_mem (by decide)

def writtenLines (lines : List String) : List Char := lines.flatMap fun line => line.toList ++ ['\n']

/-- Lines without control characters are as many as their line feeds. -/
private theorem count_writtenLines {lines : List String} (free : ∀ line ∈ lines, ControlFree line.toList) :
    (Source.encode (writtenLines lines)).count Source.lineFeed = lines.length := by
  rw [Source.count_encode (c := '\n') (by decide) (by decide)]
  induction lines with
  | nil => rfl
  | cons line lines ih =>
    obtain ⟨first, others⟩ := List.forall_mem_cons.1 free
    have front : writtenLines (line :: lines) = line.toList ++ '\n' :: writtenLines lines := by
      rw [writtenLines, List.flatMap_cons, List.append_assoc]
      rfl
    rw [front, List.count_append, List.count_cons_self, ih others,
      List.count_eq_zero_of_not_mem (first.not_mem (by decide)), List.length_cons, Nat.zero_add]

/-- Printed plainly these are the characters, and in colour the same is left without the colours. -/
private def Prints (script : Printer → Script) (plain : List Char) : Prop :=
  (script ⟨false⟩).flatMap Act.bytes = Source.encode plain ∧
    Color.ErasesTo ((script ⟨true⟩).flatMap Act.bytes) (Source.encode plain)

namespace Prints
variable {f g : Printer → Script} {a b : List Char}

private theorem append (first : Prints f a) (second : Prints g b) :
    Prints (fun printer => f printer ++ g printer) (a ++ b) := by
  constructor
  · rw [List.flatMap_append, first.1, second.1, Source.encode_append]
  · rw [List.flatMap_append, Source.encode_append]
    exact first.2.append second.2

private theorem nil : Prints (fun _ => []) [] := ⟨rfl, fun _ => rfl⟩

private theorem flatMap {α : Type} {script : Printer → α → Script} {plain : α → List Char} {items : List α}
    (all : ∀ item ∈ items, Prints (script · item) (plain item)) :
    Prints (fun printer => items.flatMap (script printer)) (items.flatMap plain) := by
  induction items with
  | nil => exact nil
  | cons item items ih =>
    obtain ⟨first, others⟩ := List.forall_mem_cons.1 all
    exact first.append (ih others)

private theorem write {text : String} (free : '\x1b' ∉ text.toList) :
    Prints (fun _ => [.write text]) text.toList := by
  have bytes : List.flatMap Act.bytes [.write text] = Source.encode text.toList := List.append_nil _
  refine ⟨bytes, ?_⟩
  rw [bytes]
  exact .text free

private theorem piece {text : String} (free : '\x1b' ∉ text.toList) (role : Role) :
    Prints (fun printer => printer.piece role text) text.toList := by
  obtain ⟨plain, same⟩ := write free
  have colored : (Printer.piece ⟨true⟩ role text).flatMap Act.bytes =
      Source.encode role.color.start.toList ++
        (List.flatMap Act.bytes [.write text] ++ Source.encode Color.stop.toList) := by
    simp only [Printer.piece, if_true, List.flatMap_cons, List.flatMap_nil, Act.bytes, List.append_nil]
  refine ⟨plain, ?_⟩
  rw [colored]
  have whole := role.color.erasesTo_start.append (same.append Color.erasesTo_stop)
  rwa [List.nil_append, List.append_nil] at whole

private theorem line {text : String} (free : ControlFree text.toList) (role : Role) :
    Prints (fun printer => printer.line role text) (text.toList ++ ['\n']) :=
  (piece free.escape_not_mem role).append (write (by decide))

end Prints

namespace Printer

def tokenLine (token : Token) : String := token.kind.name ++ " " ++ Quoted.quote token.literal

/-- The lines for a text: one for each token, or one for a program that is not empty and one for each
diagnostic. -/
def shownLines (mode : Mode) (text : String) : List String :=
  match mode with
  | .tokens => (TokenStream.ofText text).tokens.map tokenLine
  | .tree =>
    let parsed := parse text
    (if parsed.program.isEmpty then [] else [parsed.program.render]) ++
      parsed.diagnostics.map Diagnostic.message

private theorem controlFree_tokenLine (token : Token) : ControlFree (tokenLine token).toList :=
  .joined (.joined token.kind.controlFree_name (by decide)) (Quoted.controlFree_quote token.literal)

/-- No line has a control character, whatever the text has. -/
theorem controlFree_shownLines (mode : Mode) (text : String) :
    ∀ line ∈ shownLines mode text, ControlFree line.toList := by
  intro line mem
  cases mode with
  | tokens =>
    obtain ⟨token, -, rfl⟩ := List.mem_map.1 mem
    exact controlFree_tokenLine token
  | tree =>
    obtain mem | mem := List.mem_append.1 mem
    · split at mem
      · exact absurd mem List.not_mem_nil
      · obtain rfl := List.mem_singleton.1 mem
        exact controlFree_render text
    · obtain ⟨diagnostic, -, rfl⟩ := List.mem_map.1 mem
      exact diagnostic.controlFree_message

private theorem length_shownLines (mode : Mode) (text : String) :
    (shownLines mode text).length =
      match mode with
      | .tokens => (TokenStream.ofText text).tokens.length
      | .tree => (if (parse text).program.isEmpty then 0 else 1) + (parse text).diagnostics.length := by
  cases mode with
  | tokens => exact List.length_map _
  | tree =>
    rw [shownLines, List.length_append, List.length_map]
    split <;> rfl

/-- There is no line feed inside of a line, so the lines can be counted in what is written. -/
private theorem count_lines {mode : Mode} {text : String} {output : Option Failure × List UInt8}
    (plain : output = (none, Source.encode (writtenLines (shownLines mode text)))) :
    output.2.count Source.lineFeed = (shownLines mode text).length := by
  rw [plain]
  exact count_writtenLines (controlFree_shownLines mode text)

private theorem prints_token (token : Token) :
    Prints (fun printer => printer.token token) ((tokenLine token).toList ++ ['\n']) := by
  have space : " ".toList = [' '] := rfl
  have feed : "\n".toList = ['\n'] := rfl
  have free : '\x1b' ∉ (" " ++ Quoted.quote token.literal ++ "\n").toList := by
    have inside := (Quoted.controlFree_quote token.literal).escape_not_mem
    simp only [String.toList_append, space, feed, List.mem_append, not_or]
    exact ⟨⟨by decide, inside⟩, by decide⟩
  have all := (Prints.piece token.kind.controlFree_name.escape_not_mem (.ofKind token.kind)).append (.write free)
  have spelled : (tokenLine token).toList ++ ['\n'] =
      token.kind.name.toList ++ (" " ++ Quoted.quote token.literal ++ "\n").toList := by
    simp only [tokenLine, String.toList_append, feed, List.append_assoc]
  rw [spelled]
  exact all

private theorem prints_tokens (text : String) :
    Prints (fun printer => printer.tokens text) (writtenLines (shownLines .tokens text)) := by
  rw [writtenLines, shownLines, List.flatMap_map]
  exact .flatMap fun token _ => prints_token token

private theorem prints_parsed (text : String) :
    Prints (fun printer => printer.parsed (parse text)) (writtenLines (shownLines .tree text)) := by
  rw [writtenLines, shownLines, List.flatMap_append, List.flatMap_map]
  have messages (printer : Printer) : (parse text).messages.flatMap (printer.line .error) =
      (parse text).diagnostics.flatMap fun diagnostic => printer.line .error diagnostic.message := List.flatMap_map ..
  simp only [parsed, messages]
  refine .append ?_ (.flatMap fun diagnostic _ => .line diagnostic.controlFree_message .error)
  by_cases empty : (parse text).program.isEmpty = true
  · simp only [if_pos empty]
    exact .nil
  · simp only [if_neg empty, List.flatMap_singleton]
    exact .line (controlFree_render text) .success

end Printer

namespace Shell

/-- A prompt and the answer to a text. -/
private theorem prints_turn (mode : Mode) (text : String) :
    Prints (fun printer => printer.prompt ++ answer ⟨mode, printer⟩ text)
      (Printer.promptText.toList ++ writtenLines (Printer.shownLines mode text)) := by
  refine .append (.piece (by decide) .prompt) ?_
  rw [Prints, bytes_answer, bytes_answer]
  cases mode with
  | tokens => exact Printer.prints_tokens text
  | tree => exact Printer.prints_parsed text

/-- What a shell writes, step by step. -/
private theorem output_start_bytes (shell : Shell) (input : List UInt8) :
    (shell.start input).output.2 =
      ((Source.readable (Source.lines input)).flatMap (fun text => shell.printer.prompt ++ shell.answer text) ++
        shell.printer.prompt).flatMap Act.bytes := by
  have prompt := Script.output_eq (shell.printer.piece_unfailing .prompt Printer.promptText)
  have turn : shell.turn = fun text => (shell.printer.prompt ++ shell.answer text).flatMap Act.bytes := by
    funext text
    rw [Shell.turn, Script.output_eq (shell.answer_unfailing text), List.flatMap_append]
    exact congrArg (· ++ _) (congrArg Prod.snd prompt)
  have all := congrArg Prod.snd (shell.output_converse (Source.lines input))
  rw [turn, ← List.flatMap_assoc] at all
  rw [List.flatMap_append]
  exact all.trans (congrArg (_ ++ ·) (congrArg Prod.snd prompt))

private theorem prints_start (mode : Mode) (input : List UInt8) :
    Prints
      (fun printer => (Source.readable (Source.lines input)).flatMap
        (fun text => printer.prompt ++ answer ⟨mode, printer⟩ text) ++ printer.prompt)
      ((Source.readable (Source.lines input)).flatMap
        (fun text => Printer.promptText.toList ++ writtenLines (Printer.shownLines mode text)) ++
        Printer.promptText.toList) :=
  (Prints.flatMap fun text _ => prints_turn mode text).append (.piece (by decide) .prompt)

end Shell

def Colors (colored plain : Option Failure × List UInt8) : Prop := (colored.1, Color.erase colored.2) = plain

/-- In colour everything is printed as without it. -/
private theorem Prints.colors {script : Printer → Script} {plain : List Char} (prints : Prints script plain)
    (unfailing : ∀ printer, (script printer).Unfailing) :
    Colors (script ⟨true⟩).output (script ⟨false⟩).output ∧
      (script ⟨false⟩).output = (none, Source.encode plain) := by
  have same : (script ⟨false⟩).output = (none, Source.encode plain) := by
    rw [Script.output_eq (unfailing ⟨false⟩), prints.1]
  refine ⟨?_, same⟩
  rw [Colors, same, Script.output_eq (unfailing ⟨true⟩)]
  exact congrArg (Prod.mk none) prints.2.whole

/-- A plain listing consists of a line for each token. -/
theorem Printer.output_tokens (text : String) :
    (Printer.tokens ⟨false⟩ text).output = (none, Source.encode (writtenLines (shownLines .tokens text))) :=
  ((prints_tokens text).colors fun printer => printer.tokens_unfailing text).2

/-- A run of the shell is the same in colour. -/
private theorem Shell.colors_start (mode : Mode) (input : List UInt8) :
    Colors (start ⟨mode, ⟨true⟩⟩ input).output (start ⟨mode, ⟨false⟩⟩ input).output ∧
      (start ⟨mode, ⟨false⟩⟩ input).output.2 = Source.encode ((Source.readable (Source.lines input)).flatMap
        (fun text => Printer.promptText.toList ++ writtenLines (Printer.shownLines mode text)) ++
        Printer.promptText.toList) := by
  obtain ⟨plain, colored⟩ := prints_start mode input
  have written := (output_start_bytes ⟨mode, ⟨false⟩⟩ input).trans plain
  have erased : Color.erase (start ⟨mode, ⟨true⟩⟩ input).output.2 = (start ⟨mode, ⟨false⟩⟩ input).output.2 := by
    rw [written, output_start_bytes]
    exact colored.whole
  have ends (shade : Bool) : (start ⟨mode, ⟨shade⟩⟩ input).output.1 = _ :=
    congrArg Prod.fst (output_converse ⟨mode, ⟨shade⟩⟩ (Source.lines input))
  exact ⟨Prod.ext ((ends true).trans (ends false).symm) erased, written⟩

/-- Colour adds nothing but colour, in a whole run of the shell as in a listing and in the report of a parsed text.
Without it the output consists of prompts and lines with a line feed behind each: one line for each token, or one
for a program that is not empty and one for each diagnostic. None of them has a control character, whatever the
input has. -/
theorem output_colors (mode : Mode) (input : List UInt8) (text : String) :
    let run := fun colored => (Shell.start ⟨mode, ⟨colored⟩⟩ input).output
    let listing := fun colored => (Printer.tokens ⟨colored⟩ text).output
    let report := fun colored => (Printer.parsed ⟨colored⟩ (parse text)).output
    let prompt := Printer.promptText.toList
    Colors (run true) (run false) ∧ Colors (listing true) (listing false) ∧ Colors (report true) (report false) ∧
      (run false).2 = Source.encode ((Source.readable (Source.lines input)).flatMap
        (fun line => prompt ++ writtenLines (Printer.shownLines mode line)) ++ prompt) ∧
      listing false = (none, Source.encode (writtenLines (Printer.shownLines .tokens text))) ∧
      report false = (none, Source.encode (writtenLines (Printer.shownLines .tree text))) ∧
      ControlFree (prompt ++ (Printer.shownLines mode text).flatMap String.toList) ∧
      (listing false).2.count Source.lineFeed = (TokenStream.ofText text).tokens.length ∧
      (report false).2.count Source.lineFeed =
        (if (parse text).program.isEmpty then 0 else 1) + (parse text).diagnostics.length := by
  intro run listing report prompt
  obtain ⟨runColors, runPlain⟩ := Shell.colors_start mode input
  obtain ⟨listingColors, listingPlain⟩ :=
    (Printer.prints_tokens text).colors fun printer => printer.tokens_unfailing text
  obtain ⟨reportColors, reportPlain⟩ :=
    (Printer.prints_parsed text).colors fun printer => printer.parsed_unfailing (parse text)
  refine ⟨runColors, listingColors, reportColors, runPlain, listingPlain, reportPlain, ?_, ?_, ?_⟩
  · exact ControlFree.append_iff.2 ⟨by decide, .flatMap (Printer.controlFree_shownLines mode text)⟩
  · exact (Printer.count_lines listingPlain).trans (Printer.length_shownLines .tokens text)
  · exact (Printer.count_lines reportPlain).trans (Printer.length_shownLines .tree text)

/-- An escape character of a text is printed in hexadecimal digits. -/
example : (Printer.tokens ⟨false⟩ "\x1b[0m").output.2 =
    "Illegal \"\\u\x7b1b\x7d\"\nIllegal \"[\"\nInt \"0\"\nIdentifier \"m\"\n".toUTF8.data.toList := by
  decide +kernel

end LittleScript

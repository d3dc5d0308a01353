import LittleScript.Proofs.Token.Lexical
import LittleScript.Syntax.Layout

/-!
The tokens of a written layout. Where no word runs into what is written behind it, the words of the
layout are read back one by one.
-/

namespace LittleScript

namespace Layout

def chars (layout : List Piece) : List Char := (text layout).toList

def words (layout : List Piece) : List (Kind × String) := layout.filterMap Piece.spelling?

section
variable {kind : Kind} {literal : String} {rest a b : List Piece}

@[simp] theorem chars_nil : chars [] = [] := rfl

@[simp] theorem chars_append : chars (a ++ b) = chars a ++ chars b := by
  rw [chars, text_append, String.toList_append]
  rfl

@[simp] theorem chars_gap : chars (.gap :: rest) = ' ' :: chars rest := by
  rw [← List.singleton_append, chars_append]
  rfl

@[simp] theorem chars_word : chars (.word kind literal :: rest) = literal.toList ++ chars rest := by
  rw [← List.singleton_append, chars_append]
  congr 1

theorem words_nil : words [] = [] := rfl

theorem words_append : words (a ++ b) = words a ++ words b := List.filterMap_append

theorem words_gap : words (.gap :: rest) = words rest := rfl

theorem words_sign : words (.sign kind :: rest) = (kind, kind.symbol) :: words rest := rfl

theorem words_spelled {token : Token} : words (.spelled token :: rest) = token.spelling :: words rest := rfl

theorem words_named {name : Name} : words (.named name :: rest) = (.identifier, name.text) :: words rest :=
  rfl

end

/-- Statements with spaces behind them have the words of the statements. -/
theorem words_spaced_cons (s : Statement) (rest : List Statement) :
    words (spaced (s :: rest)) = words (statement s) ++ words (spaced rest) := by
  rw [spaced, words_append, words_append, words_gap, words_nil, List.append_nil]

/-- The layout of a program has the words of its statements with a space behind each. -/
theorem words_spaced (body : List Statement) : words (spaced body) = words (program body) := by
  induction body with
  | nil => rw [spaced, program, List.flatMap_nil]
  | cons s rest ih => rw [words_spaced_cons, program, List.flatMap_cons, words_append, ih, program]

/-- Every word is spelled like its kind and is not read together with what is written behind it, be
it in the layout or in the text that follows the layout. -/
def Apart : List Piece → List Char → Prop
  | [], _ => True
  | .gap :: rest, following => Apart rest following
  | .word kind literal :: rest, following =>
    Lexical kind literal ∧ kind.Free (chars rest ++ following) ∧ Apart rest following

theorem apart_append {a b : List Piece} {following : List Char} :
    Apart (a ++ b) following ↔ Apart a (chars b ++ following) ∧ Apart b following := by
  induction a with
  | nil => simp [Apart]
  | cons piece a ih =>
    cases piece with
    | gap => exact ih
    | word kind literal =>
      simp only [List.cons_append, Apart, ih, chars_append, List.append_assoc, and_assoc]

end Layout

namespace Lexer
variable {found : List Token}

/-- A literal that is free of what follows is read as a token of its kind. -/
private theorem collect_word {kind : Kind} {literal : String} {following : List Char}
    (lexical : Lexical kind literal) (free : kind.Free following) (here : Location) (ended : Bool) :
    ∃ token next, token.spelling = (kind, literal) ∧
      collect ⟨literal.toList ++ following, here, ended⟩ found =
        collect ⟨following, next, ended⟩ (token :: found) := by
  obtain ⟨c, rest, spelled, proper, first⟩ := lexical.first
  refine ⟨⟨kind, literal, here⟩, here.after (c :: rest), rfl, ?_⟩
  rw [spelled, List.cons_append, collect_lexeme proper, first following free, ← spelled,
    String.ofList_toList]

/-- The words of a layout are read back. -/
private theorem spelling_collect_chars {layout : List Piece} (apart : Layout.Apart layout []) (here : Location)
    (ended : Bool) :
    (collect ⟨Layout.chars layout, here, ended⟩ found).1.map Token.spelling =
      found.reverse.map Token.spelling ++ Layout.words layout := by
  induction layout generalizing found here with
  | nil =>
    rw [Layout.chars_nil, collect_none rfl]
    exact (List.append_nil _).symm
  | cons piece rest ih =>
    cases piece with
    | gap =>
      rw [Layout.chars_gap, collect_blank (by decide)]
      exact ih apart _
    | word kind literal =>
      obtain ⟨lexical, free, others⟩ := apart
      rw [List.append_nil] at free
      rw [Layout.chars_word]
      obtain ⟨token, next, spelled, read⟩ := collect_word lexical free here ended
      rw [read, ih others, List.reverse_cons, List.map_append, List.append_assoc, List.map_singleton,
        spelled]
      rfl

end Lexer

/-- The tokens of a written layout are its words. -/
theorem TokenStream.spelling_ofText {layout : List Piece} (apart : Layout.Apart layout []) :
    (TokenStream.ofText (Layout.text layout)).tokens.map Token.spelling = Layout.words layout :=
  Lexer.spelling_collect_chars apart Location.start false

end LittleScript

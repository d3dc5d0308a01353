import LittleScript.Syntax.Tree

/-!
The canonical layout of a program. Unary and binary expressions stand in parentheses of their own,
statements carry their own semicolon, and top-level statements follow each other without a space.
-/

namespace LittleScript

/-- A layout consists of spelled tokens and single spaces. -/
inductive Piece where
  | word (kind : Kind) (literal : String)
  | gap
  deriving DecidableEq, Repr

namespace Piece

def sign (kind : Kind) : Piece := word kind kind.symbol

def spelled (token : Token) : Piece := word token.kind token.literal

def named (name : Name) : Piece := word .identifier name.text

def text : Piece → String
  | word _ literal => literal
  | gap => " "

def spelling? : Piece → Option (Kind × String)
  | word kind literal => some (kind, literal)
  | gap => none

end Piece

namespace Layout

def separated : List (List Piece) → List Piece
  | [] => []
  | [item] => item
  | item :: items => item ++ [Piece.sign .comma, .gap] ++ separated items

def functionHead (token : Token) (parameters : List Name) : List Piece :=
  [Piece.spelled token, .sign .leftParen] ++
    separated (parameters.map fun name => [Piece.named name]) ++ [.sign .rightParen, .gap]

/-- The layout of a condition. One that has no parentheses of its own gets those of the `if`. -/
def condition (guard : Expression) (layout : List Piece) : List Piece :=
  match guard with
  | .unary .. | .binary .. => layout
  | _ => [.sign .leftParen] ++ layout ++ [.sign .rightParen]

mutual

def expression : Expression → List Piece
  | .name name => [.named name]
  | .integer _ value => [.word .integer (toString value)]
  | .boolean _ value => [.sign (if value then .trueWord else .falseWord)]
  | .unary _ operator operand =>
    [.sign .leftParen, .sign operator.kind] ++ expression operand ++ [.sign .rightParen]
  | .binary _ operator left right =>
    [.sign .leftParen] ++ expression left ++ [.gap, .sign operator.kind, .gap] ++
      expression right ++ [.sign .rightParen]
  | .call _ callee arguments =>
    expression callee ++ [.sign .leftParen] ++ separated (expressions arguments) ++
      [.sign .rightParen]
  | .function token parameters body => functionHead token parameters ++ block body

def expressions : List Expression → List (List Piece)
  | [] => []
  | e :: es => expression e :: expressions es

def block : Block → List Piece
  | .braced _ body => [.sign .leftBrace, .gap] ++ spaced body ++ [.sign .rightBrace]

def spaced : List Statement → List Piece
  | [] => []
  | s :: rest => statement s ++ [.gap] ++ spaced rest

def alternative : Option Block → List Piece
  | none => []
  | some other => [.gap, .sign .elseWord, .gap] ++ block other

def statement : Statement → List Piece
  | .binding token name value =>
    [.spelled token, .gap, .named name, .gap, .sign .assign, .gap] ++ expression value ++
      [.sign .semicolon]
  | .answer token value => [.spelled token, .gap] ++ expression value ++ [.sign .semicolon]
  | .assignment _ name value =>
    [.named name, .gap, .sign .assign, .gap] ++ expression value ++ [.sign .semicolon]
  | .conditional _ guard consequence other =>
    [.sign .ifWord, .gap] ++ condition guard (expression guard) ++ [.gap] ++ block consequence ++
      alternative other
  | .function token parameters body => functionHead token parameters ++ block body

end

/-- Top-level statements, one right behind the other. -/
def program (program : Program) : List Piece := program.flatMap statement

def text (layout : List Piece) : String := String.join (layout.map Piece.text)

/-- Layouts side by side are written side by side. -/
theorem text_append (a b : List Piece) : text (a ++ b) = text a ++ text b := by
  simp [text]

end Layout

def Statement.render (statement : Statement) : String := Layout.text (Layout.statement statement)

def Program.render (program : Program) : String := Layout.text (Layout.program program)

end LittleScript

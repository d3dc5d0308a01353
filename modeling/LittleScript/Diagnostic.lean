import LittleScript.Token.Basic
import LittleScript.Text.Quoted

/-!
Diagnostics: what can be wrong with a source text, where, and in which words it is reported.
-/

namespace LittleScript

inductive Cause where
  /-- The next token is not the one that has to follow. -/
  | unexpected (expected found : Kind)
  /-- No expression starts with a token of this kind. -/
  | noExpression (found : Kind)
  /-- The number does not fit. -/
  | integerTooLarge (literal : String)
  /-- The character belongs to no token. -/
  | illegalCharacter (literal : String)
  /-- The input ends inside the block. -/
  | unterminatedBlock (opened : Location)
  /-- One level more than allowed would be open at once. -/
  | nestingTooDeep (limit : Nat)
  deriving DecidableEq, Repr

namespace Cause

/-- The words for a cause, without its place. Literals are quoted, kinds are not. -/
def message : Cause → String
  | unexpected expected found =>
    "expected next token to be " ++ expected.symbol ++ ", got " ++ found.symbol ++ " instead"
  | noExpression found => "no prefix parse function for " ++ found.symbol ++ " found"
  | integerTooLarge literal => "could not parse " ++ Quoted.quote literal ++ " as integer"
  | illegalCharacter literal => "illegal character " ++ Quoted.quote literal
  | unterminatedBlock opened =>
    "expected '\x7d' to close block opened at " ++ opened.text ++ ", reached end of input"
  | nestingTooDeep limit => "nesting exceeds " ++ toString limit ++ " levels"

end Cause

structure Diagnostic where
  cause : Cause
  location : Location
  deriving DecidableEq, Repr

namespace Diagnostic

def message (diagnostic : Diagnostic) : String :=
  "Parse error at line " ++ toString diagnostic.location.line ++
    ", column " ++ toString diagnostic.location.column ++ ": " ++ diagnostic.cause.message

end Diagnostic
end LittleScript

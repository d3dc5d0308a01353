import LittleScript.Source.Location
import LittleScript.Token.Kind

/-!
Tokens: a kind, the literal text and the place where it starts.
-/

namespace LittleScript

/-- A token as it was read. The mark for the end of the input has an empty literal. -/
structure Token where
  kind : Kind
  literal : String
  location : Location
  deriving DecidableEq, Repr, Inhabited

namespace Token

def endMark (location : Location) : Token := ⟨.endOfInput, "", location⟩

def spelling (token : Token) : Kind × String := (token.kind, token.literal)

/-- Alike tokens have the same kind and literal. Their places are not compared. -/
def alike (a b : Token) : Bool := a.spelling = b.spelling

def relocate (f : Location → Location) (token : Token) : Token :=
  { token with location := f token.location }

def describe (token : Token) : String :=
  match token.kind with
  | .identifier => "identifier '" ++ token.literal ++ "'"
  | .integer => "int literal " ++ token.literal
  | .illegal => "illegal character '" ++ token.literal ++ "'"
  | .endOfInput => "end of file"
  | kind => "'" ++ kind.symbol ++ "'"

end Token
end LittleScript

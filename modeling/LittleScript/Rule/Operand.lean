import LittleScript.Numeral
import LittleScript.Rule.Statement

/-!
Rules for operands and for the links between them. What stands inside is read by the rules one level
further in.
-/

namespace LittleScript.Rule

def integer (token : Token) : Rule Expression :=
  match Numeral.read? token.literal with
  | some value => return .integer token value
  | none => refuse (.integerTooLarge token.literal) token.location

def unary (inner : Inner) (token : Token) (operator : UnaryOperator) : Rule Expression := do
  advance
  return .unary token operator (← inner.expression .unary)

/-- An expression in parentheses, which leave no node. -/
def grouped (inner : Inner) : Rule Expression := do
  let expression ← nextExpression inner
  let _ ← expect .rightParen
  return expression

def function (inner : Inner) (token : Token) : Rule Expression := do
  let (parameters, body) ← signature inner
  return .function token parameters body

def operandOn (inner : Inner) (token : Token) : Rule Expression :=
  match token.kind with
  | .identifier => return .name (Name.ofToken token)
  | .integer => integer token
  | .bang => unary inner token .bang
  | .minus => unary inner token .minus
  | .trueWord => return .boolean token true
  | .falseWord => return .boolean token false
  | .leftParen => grouped inner
  | .fnWord => function inner token
  | .illegal => refuse (.illegalCharacter token.literal) token.location
  | kind => refuse (.noExpression kind) token.location

def operand (inner : Inner) : Rule Expression := do
  operandOn inner (← current)

def linked (inner : Inner) (link : Link) (left : Expression) : Rule Expression := do
  advance
  let token ← current
  match link with
  | .binary operator =>
    advance
    return .binary token operator left (← inner.expression link.precedence)
  | .call => return .call token left (← listed (nextExpression inner))

end LittleScript.Rule

import LittleScript.Rule.Listed

/-!
Rules for statements and functions. They read expressions and blocks by rules that they are given,
which are those one level further in.
-/

namespace LittleScript

structure Inner where
  /-- Reads an expression whose links all bind tighter than the given strength. -/
  expression : Precedence → Rule Expression
  /-- Reads a block, from its opening brace to the closing one. -/
  block : Rule Block

namespace Rule

def nextExpression (inner : Inner) : Rule Expression := do
  advance
  inner.expression .lowest

def nextBlock (inner : Inner) : Rule Block := do
  let _ ← expect .leftBrace
  inner.block

def assigned (inner : Inner) : Rule Expression := do
  let _ ← expect .assign
  let value ← nextExpression inner
  let _ ← expect .semicolon
  return value

def binding (inner : Inner) : Rule Statement := do
  let token ← current
  let name ← expect .identifier
  return .binding token (Name.ofToken name) (← assigned inner)

def answer (inner : Inner) : Rule Statement := do
  let token ← current
  let value ← nextExpression inner
  let _ ← expect .semicolon
  return .answer token value

def assignment (inner : Inner) : Rule Statement := do
  let token ← current
  return .assignment token (Name.ofToken token) (← assigned inner)

def alternative (inner : Inner) : Rule (Option Block) := do
  if (← peek).kind = .elseWord then
    advance
    return some (← nextBlock inner)
  else
    return none

def conditional (inner : Inner) : Rule Statement := do
  let token ← current
  let _ ← expect .leftParen
  let condition ← nextExpression inner
  let _ ← expect .rightParen
  let consequence ← nextBlock inner
  return .conditional token condition consequence (← alternative inner)

def parameter : Rule Name := do
  return Name.ofToken (← expect .identifier)

def signature (inner : Inner) : Rule (List Name × Block) := do
  let _ ← expect .leftParen
  let parameters ← listed parameter
  return (parameters, ← nextBlock inner)

/-- A function as a statement. A semicolon behind it belongs to it. -/
def functionStatement (inner : Inner) : Rule Statement := do
  let token ← current
  let (parameters, body) ← signature inner
  if (← peek).kind = .semicolon then
    advance
  return .function token parameters body

/-- The statement that the given token begins. A character that belongs to no token is reported. Any
other token that begins no statement is left out without a word. -/
def statementOn (inner : Inner) (token : Token) : Rule Statement :=
  match token.kind with
  | .letWord => binding inner
  | .returnWord => answer inner
  | .fnWord => functionStatement inner
  | .ifWord => conditional inner
  | .identifier => assignment inner
  | .illegal => refuse (.illegalCharacter token.literal) token.location
  | _ => skip

def statement (inner : Inner) : Rule Statement := do
  let token ← current
  record (.statementBegun token (← peek))
  (statementOn inner token).andRecord fun built => .statementEnded token built.isSome

/-- What a block holds, from its opening brace to the closing one or to the end. -/
def openBlock (inner : Inner) : Rule Block := do
  let token ← current
  advance
  return .braced token (← sequence (statement inner) (· = .rightBrace))

def closed (block : Block) : Rule Block := do
  let last ← current
  if last.kind = .rightBrace then
    return block
  else
    refuse (.unterminatedBlock block.token.location) last.location

end Rule
end LittleScript

import LittleScript.Syntax.Tree

/-!
The tokens that the nodes of a tree keep, in the order of a text: a left operand stands in front of its
operator, and a callee in front of the parenthesis that calls it.
-/

namespace LittleScript

mutual

def Expression.tokens : Expression → List Token
  | .name name => [name.token]
  | .integer token _ | .boolean token _ => [token]
  | .unary token _ operand => token :: operand.tokens
  | .binary token _ left right => left.tokens ++ token :: right.tokens
  | .call token callee arguments => callee.tokens ++ token :: Expression.allTokens arguments
  | .function token parameters body => token :: (parameters.map Name.token ++ body.tokens)

def Expression.allTokens : List Expression → List Token
  | [] => []
  | e :: es => e.tokens ++ Expression.allTokens es

def Block.tokens : Block → List Token
  | .braced token body => token :: Statement.allTokens body

def Block.anyTokens : Option Block → List Token
  | none => []
  | some other => other.tokens

def Statement.allTokens : List Statement → List Token
  | [] => []
  | s :: rest => s.tokens ++ Statement.allTokens rest

/-- The tokens of a statement. The name of an assignment is listed once. -/
def Statement.tokens : Statement → List Token
  | .binding token name value => token :: name.token :: value.tokens
  | .answer token value => token :: value.tokens
  | .assignment _ name value => name.token :: value.tokens
  | .conditional token guard consequence other =>
    token :: (guard.tokens ++ consequence.tokens ++ Block.anyTokens other)
  | .function token parameters body => token :: (parameters.map Name.token ++ body.tokens)

end

def Program.tokens (program : Program) : List Token := Statement.allTokens program

theorem Expression.allTokens_eq_flatMap (es : List Expression) :
    Expression.allTokens es = es.flatMap Expression.tokens := by
  induction es with
  | nil => rfl
  | cons e es ih => rw [Expression.allTokens, ih, List.flatMap_cons]

theorem Statement.allTokens_eq_flatMap (body : List Statement) :
    Statement.allTokens body = body.flatMap Statement.tokens := by
  induction body with
  | nil => rfl
  | cons s body ih => rw [Statement.allTokens, ih, List.flatMap_cons]

end LittleScript

import LittleScript.Syntax.Tree

/-!
How tightly operators bind, and which tokens go on with an expression that could already end.
-/

namespace LittleScript

/-- Binding strengths, loosest first. A call binds tightest. -/
inductive Precedence where
  | lowest | equals | lessGreater | sum | product | unary | call
  deriving DecidableEq, Repr

namespace Precedence

def rank : Precedence → Nat
  | lowest => 0
  | equals => 1
  | lessGreater => 2
  | sum => 3
  | product => 4
  | unary => 5
  | call => 6

instance : LT Precedence := ⟨fun a b => a.rank < b.rank⟩

instance (a b : Precedence) : Decidable (a < b) := inferInstanceAs (Decidable (a.rank < b.rank))

def name : Precedence → String
  | lowest => "Lowest"
  | equals => "Equals"
  | lessGreater => "LessGreater"
  | sum => "Sum"
  | product => "Product"
  | unary => "Prefix"
  | call => "Call"

end Precedence

inductive Link where
  | binary (operator : BinaryOperator)
  | call
  deriving DecidableEq, Repr

namespace Link

def ofKind? : Kind → Option Link
  | .leftParen => some call
  | kind => (BinaryOperator.ofKind? kind).map binary

def precedence : Link → Precedence
  | binary .equal | binary .notEqual => .equals
  | binary .less | binary .greater => .lessGreater
  | binary .plus | binary .minus => .sum
  | binary .asterisk | binary .slash => .product
  | call => .call

end Link

/-- How tightly a token of this kind binds what stands before it. Most do not bind at all. -/
def Precedence.ofKind (kind : Kind) : Precedence :=
  ((Link.ofKind? kind).map Link.precedence).getD .lowest

end LittleScript

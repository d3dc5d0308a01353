import LittleScript.Token.Basic

/-!
Programs as trees. Every node keeps the token that introduced it; parentheses leave no node.
-/

namespace LittleScript

/-- A name where it is used or bound. A name that was read has its token's literal as text. -/
structure Name where
  token : Token
  text : String
  deriving DecidableEq, Repr, Inhabited

def Name.ofToken (token : Token) : Name := ⟨token, token.literal⟩

inductive UnaryOperator where
  | bang | minus
  deriving DecidableEq, Repr

inductive BinaryOperator where
  | plus | minus | asterisk | slash | less | greater | equal | notEqual
  deriving DecidableEq, Repr

def UnaryOperator.kind : UnaryOperator → Kind
  | bang => .bang
  | minus => .minus

def BinaryOperator.kind : BinaryOperator → Kind
  | plus => .plus
  | minus => .minus
  | asterisk => .asterisk
  | slash => .slash
  | less => .less
  | greater => .greater
  | equal => .equal
  | notEqual => .notEqual

def UnaryOperator.ofKind? : Kind → Option UnaryOperator
  | .bang => some bang
  | .minus => some minus
  | _ => none

def BinaryOperator.ofKind? : Kind → Option BinaryOperator
  | .plus => some plus
  | .minus => some minus
  | .asterisk => some asterisk
  | .slash => some slash
  | .less => some less
  | .greater => some greater
  | .equal => some equal
  | .notEqual => some notEqual
  | _ => none

theorem UnaryOperator.ofKind?_eq_some {k : Kind} {operator : UnaryOperator} :
    ofKind? k = some operator ↔ operator.kind = k := by
  cases k <;> cases operator <;> simp [ofKind?, kind]

theorem BinaryOperator.ofKind?_eq_some {k : Kind} {operator : BinaryOperator} :
    ofKind? k = some operator ↔ operator.kind = k := by
  cases k <;> cases operator <;> simp [ofKind?, kind]

theorem UnaryOperator.kind_injective {f g : UnaryOperator} (h : f.kind = g.kind) : f = g :=
  Option.some.inj ((ofKind?_eq_some.2 h).symm.trans (ofKind?_eq_some.2 rfl))

theorem BinaryOperator.kind_injective {f g : BinaryOperator} (h : f.kind = g.kind) : f = g :=
  Option.some.inj ((ofKind?_eq_some.2 h).symm.trans (ofKind?_eq_some.2 rfl))

mutual

/-- What has a value. A call keeps its opening parenthesis as token. -/
inductive Expression where
  | name (name : Name)
  | integer (token : Token) (value : Int)
  | boolean (token : Token) (value : Bool)
  | unary (token : Token) (operator : UnaryOperator) (operand : Expression)
  | binary (token : Token) (operator : BinaryOperator) (left right : Expression)
  | call (token : Token) (callee : Expression) (arguments : List Expression)
  | function (token : Token) (parameters : List Name) (body : Block)

inductive Block where
  | braced (token : Token) (statements : List Statement)

/-- What a program is a list of. An assignment has the token of its name. -/
inductive Statement where
  | binding (token : Token) (name : Name) (value : Expression)
  | answer (token : Token) (value : Expression)
  | assignment (token : Token) (name : Name) (value : Expression)
  | conditional (token : Token) (condition : Expression) (consequence : Block)
      (alternative : Option Block)
  | function (token : Token) (parameters : List Name) (body : Block)

end

instance : Inhabited Expression := ⟨.name default⟩
instance : Inhabited Block := ⟨.braced default []⟩
instance : Inhabited Statement := ⟨.answer default default⟩

abbrev Program := List Statement

namespace Expression

def token : Expression → Token
  | name n => n.token
  | integer t _ | boolean t _ | unary t _ _ | binary t _ _ _ | call t _ _ | function t _ _ => t

end Expression

namespace Block

def token : Block → Token
  | braced t _ => t

def statements : Block → List Statement
  | braced _ body => body

end Block

namespace Statement

def token : Statement → Token
  | binding t _ _ | answer t _ | assignment t _ _ | conditional t _ _ _ | function t _ _ => t

end Statement

/-- The literal of the first statement's token. It is empty for an empty program. -/
def Program.firstLiteral (program : Program) : String :=
  (program.head?.map fun statement => statement.token.literal).getD ""

end LittleScript

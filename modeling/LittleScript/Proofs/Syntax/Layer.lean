import LittleScript.Syntax.Link

/-!
The layers of expressions. Operators of one layer bind equally tight and tighter than those of the
layers before it.
-/

namespace LittleScript

/-- The layers of expressions, loosest first. -/
inductive Layer where
  | equality | comparison | sum | product | unary | call | primary
  deriving DecidableEq, Repr

namespace Layer

def operators : Layer → List BinaryOperator
  | equality => [.equal, .notEqual]
  | comparison => [.less, .greater]
  | sum => [.plus, .minus]
  | product => [.asterisk, .slash]
  | unary | call | primary => []

def higher : Layer → Layer
  | equality => comparison
  | comparison => sum
  | sum => product
  | product => unary
  | unary => call
  | call => primary
  | primary => primary

def operator? (layer : Layer) (kind : Kind) : Option BinaryOperator :=
  layer.operators.find? (·.kind = kind)

def rank : Layer → Nat
  | equality => 0
  | comparison => 1
  | sum => 2
  | product => 3
  | unary => 4
  | call => 5
  | primary => 6

def strength : Layer → Precedence
  | equality => .equals
  | comparison => .lessGreater
  | sum => .sum
  | product => .product
  | unary => .unary
  | call | primary => .call

theorem strength_of_mem {layer : Layer} {operator : BinaryOperator} (h : operator ∈ layer.operators) :
    (Link.binary operator).precedence = layer.strength := by
  revert h
  cases layer <;> cases operator <;> decide

theorem operator?_eq_some {layer : Layer} {kind : Kind} {operator : BinaryOperator} :
    layer.operator? kind = some operator ↔ operator.kind = kind ∧ operator ∈ layer.operators := by
  constructor
  · intro found
    exact ⟨by simpa using List.find?_some found, List.mem_of_find?_eq_some found⟩
  · rintro ⟨rfl, own⟩
    obtain ⟨other, found⟩ := Option.isSome_iff_exists.1
      (List.find?_isSome.2 ⟨operator, own, decide_eq_true rfl⟩ : (layer.operator? operator.kind).isSome = true)
    have same : other.kind = operator.kind := by simpa using List.find?_some found
    rwa [BinaryOperator.kind_injective same] at found

theorem rank_le_higher (layer : Layer) : layer.rank ≤ layer.higher.rank := by
  cases layer <;> decide

theorem strength_le_higher (layer : Layer) : layer.strength.rank ≤ layer.higher.strength.rank := by
  cases layer <;> decide

end Layer

/-- The layer that is read by an expression whose links all bind tighter than the given strength. No
expression is read with the strength of a call. -/
def Precedence.layer : Precedence → Layer
  | lowest => .equality
  | equals => .comparison
  | lessGreater => .sum
  | sum => .product
  | product | unary => .unary
  | call => .primary

namespace Layer

/-- The second operand of an operator is read as the layer above it. -/
theorem layer_strength {layer : Layer} {operator : BinaryOperator} (h : operator ∈ layer.operators) :
    layer.strength.layer = layer.higher := by
  revert h
  cases layer <;> cases operator <;> decide

/-- A call binds tighter than whatever its layer may be read with. -/
theorem lt_call {precedence : Precedence} (read : precedence.layer.rank ≤ call.rank) :
    precedence < .call := by
  revert read
  cases precedence <;> decide

/-- The operators of a layer bind tighter than whatever the layer may be read with. -/
theorem lt_strength {layer : Layer} {operator : BinaryOperator} {precedence : Precedence}
    (own : operator ∈ layer.operators) (read : precedence.layer.rank ≤ layer.rank) :
    precedence < layer.strength := by
  revert own read
  cases layer <;> cases operator <;> cases precedence <;> decide

/-- Every operator belongs to a layer. -/
theorem exists_mem_operators (operator : BinaryOperator) : ∃ layer : Layer, operator ∈ layer.operators := by
  cases operator with
  | equal | notEqual => exact ⟨equality, by decide⟩
  | less | greater => exact ⟨comparison, by decide⟩
  | plus | minus => exact ⟨sum, by decide⟩
  | asterisk | slash => exact ⟨product, by decide⟩

/-- Second operands may be calls, in every layer. -/
theorem higher_rank_le_call {layer : Layer} {operator : BinaryOperator} (own : operator ∈ layer.operators) :
    layer.higher.rank ≤ call.rank := by
  revert own
  cases layer <;> cases operator <;> decide

/-- A chain is a first operand for operators that bind no tighter than its own. -/
theorem rank_le_of_not_lt {layer other : Layer} {operator : BinaryOperator} (own : operator ∈ layer.operators)
    (loose : ¬ other.strength < layer.strength) : layer.rank ≤ other.rank := by
  revert own loose
  cases layer <;> cases other <;> cases operator <;> decide

/-- Only primaries and calls can be called. -/
theorem call_rank_le {layer : Layer} (loose : ¬ layer.strength < .call) : call.rank ≤ layer.rank := by
  revert loose
  cases layer <;> decide

/-- What may be read with a strength: the layers of the operators that bind tighter, and calls. -/
theorem layer_rank_le {layer : Layer} {operator : BinaryOperator} {precedence : Precedence}
    (own : operator ∈ layer.operators) (tighter : precedence < layer.strength) :
    precedence.layer.rank ≤ layer.rank := by
  revert own tighter
  cases layer <;> cases operator <;> cases precedence <;> decide

theorem layer_rank_le_unary {precedence : Precedence} (used : precedence ≠ .call) :
    precedence.layer.rank ≤ unary.rank := by
  revert used
  cases precedence <;> decide

end Layer
end LittleScript

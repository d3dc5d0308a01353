import LittleScript.Proofs.Rule.Congruence
import LittleScript.Proofs.Syntax.Layer

/-!
A plain descent through the layers of expressions: one rule for each layer, which reads operands by
the rule of the next layer and puts them together from left to right. It shares the statement rules
and knows no limit of levels.
-/

namespace LittleScript

open Run

namespace Rule

/-- Extends a value as long as the token behind the current one makes a link. The step for a link
starts on that token. -/
def extendFrom {α β : Type} (link? : Kind → Option β) (step : β → α → Rule α) (value : α)
    (s : State) : Option α × State :=
  if _ : s.tokens = [] then (some value, s)
  else
    match link? s.peek.kind with
    | none => (some value, s)
    | some link =>
      match _ : (step link value).run s.advance with
      | (none, t) => (none, t)
      | (some value, t) => extendFrom link? step value t
termination_by s.tokens.length
decreasing_by
  have used := State.length_advance_lt (.refl s) ‹s.tokens ≠ []›
  have bound := (leads_of_run ‹(step link _).run s.advance = (some value, t)›).length_le
  exact Nat.lt_of_le_of_lt bound used

theorem leads_extendFrom {α β : Type} (link? : Kind → Option β) (step : β → α → Rule α) (value : α)
    (s : State) : s.Leads (extendFrom link? step value s).2 := by
  fun_induction extendFrom link? step value s with
  | case1 => exact .refl _
  | case2 => exact .refl _
  | case3 value s _ link _ t failed => exact (State.Leads.advance s).trans (leads_of_run failed)
  | case4 value s _ link _ w t built ih =>
    exact (State.Leads.advance s).trans ((leads_of_run built).trans ih)

def extended {α β : Type} (link? : Kind → Option β) (step : β → α → Rule α) (value : α) : Rule α :=
  ⟨extendFrom link? step value, leads_extendFrom link? step value⟩

@[simp] theorem run_extended {α β : Type} (link? : Kind → Option β) (step : β → α → Rule α)
    (value : α) (s : State) :
    (extended link? step value).run s = extendFrom link? step value s := rfl

end Rule

namespace Layered

open Rule

def operation (operand : Rule Expression) (operator : BinaryOperator) (left : Expression) :
    Rule Expression := do
  let token ← current
  advance
  return .binary token operator left (← operand)

def call (inner : Inner) (callee : Expression) : Rule Expression := do
  let token ← current
  return .call token callee (← listed (nextExpression inner))

/-- `higher (operator higher)*` with the operators of the layer. -/
def chain (layer : Layer) (higher : Rule Expression) : Rule Expression := do
  let first ← higher
  extended layer.operator? (operation higher) first

def primaryOn (inner : Inner) (token : Token) : Rule Expression :=
  match token.kind with
  | .identifier => return .name (Name.ofToken token)
  | .integer => integer token
  | .trueWord => return .boolean token true
  | .falseWord => return .boolean token false
  | .leftParen => grouped inner
  | .fnWord => function inner token
  | .illegal => refuse (.illegalCharacter token.literal) token.location
  | kind => refuse (.noExpression kind) token.location

def primary (inner : Inner) : Rule Expression := do
  primaryOn inner (← current)

def opening? (kind : Kind) : Option Unit := if kind = .leftParen then some () else none

def calls (inner : Inner) : Rule Expression := do
  let callee ← primary inner
  extended opening? (fun _ => call inner) callee

def unary (inner : Inner) : Rule Expression := do
  let token ← current
  match UnaryOperator.ofKind? token.kind with
  | some operator => Rule.unary inner token operator
  | none => calls inner

def nonterminal (inner : Inner) : Layer → Rule Expression
  | .equality => chain .equality (chain .comparison (chain .sum (chain .product (unary inner))))
  | .comparison => chain .comparison (chain .sum (chain .product (unary inner)))
  | .sum => chain .sum (chain .product (unary inner))
  | .product => chain .product (unary inner)
  | .unary => unary inner
  | .call => calls inner
  | .primary => primary inner

def block (inner : Inner) : Rule Block := do
  let read ← openBlock inner
  closed read

def rules (inner : Inner) : Inner := ⟨fun precedence => nonterminal inner precedence.layer, block inner⟩

/-- The rules for inputs of at most `size` tokens. -/
def upTo : Nat → Inner
  | 0 => rules ⟨fun _ => skip, skip⟩
  | size + 1 => rules (upTo size)

def parser : Inner where
  expression precedence :=
    ⟨fun s => ((upTo s.tokens.length).expression precedence).run s,
      fun s => ((upTo s.tokens.length).expression precedence).leads s⟩
  block := ⟨fun s => (upTo s.tokens.length).block.run s, fun s => (upTo s.tokens.length).block.leads s⟩

end Layered
end LittleScript

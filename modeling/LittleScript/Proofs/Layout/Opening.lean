import Mathlib.Data.List.Forall2
import LittleScript.Proofs.Layout.Reading
import LittleScript.Proofs.Syntax.Canonical
import LittleScript.Proofs.Syntax.Levels
import LittleScript.Syntax.Alike

/-!
The first words of layouts, and the parts of a layout that brackets enclose. A condition is enclosed as if
it had no parentheses of its own, and calls stand one behind the other without any bracket around them.
-/

namespace LittleScript

def Expression.opening : Expression → Kind
  | .name _ => .identifier
  | .integer _ _ => .integer
  | .boolean _ true => .trueWord
  | .boolean _ false => .falseWord
  | .unary .. | .binary .. => .leftParen
  | .call _ callee _ => callee.opening
  | .function .. => .fnWord

/-- Neither a closing parenthesis nor a unary operator opens an expression. -/
theorem Expression.opening_mem (e : Expression) :
    e.opening ∈ [Kind.identifier, .integer, .trueWord, .falseWord, .leftParen, .fnWord] := by
  induction e using Expression.opening.induct with
  | case7 _ callee _ ih => exact ih
  | _ => simp [opening]

def Statement.opening : Statement → Kind
  | .binding .. => .letWord
  | .answer .. => .returnWord
  | .assignment .. => .identifier
  | .conditional .. => .ifWord
  | .function .. => .fnWord

namespace Layout

def firstKind (spelled : List (Kind × String)) : Option Kind := spelled.head?.map Prod.fst

section
variable {kind : Kind} {literal : String} {rest : List (Kind × String)}

theorem firstKind_cons : firstKind ((kind, literal) :: rest) = some kind := rfl

/-- A function begins with its keyword. -/
private theorem firstKind_functionHead {token : Token} {parameters : List Name} {layout : List Piece}
    (plain : token.Plain .fnWord) :
    firstKind (words (functionHead token parameters ++ layout) ++ rest) = some .fnWord := by
  have spelled : token.spelling = (.fnWord, Kind.fnWord.symbol) := plain
  simp only [functionHead, List.cons_append, List.nil_append, words_spelled, spelled, firstKind_cons]

theorem firstKind_expression : (e : Expression) → e.Faithful → (rest : List (Kind × String)) →
    firstKind (words (expression e) ++ rest) = some e.opening
  | .name _, _, _ => rfl
  | .integer _ _, _, _ => rfl
  | .boolean _ true, _, _ => rfl
  | .boolean _ false, _, _ => rfl
  | .unary .., _, _ => rfl
  | .binary .., _, _ => rfl
  | .call _ callee _, h, _ => by
    rw [expression, List.append_assoc, List.append_assoc, words_append, List.append_assoc]
    exact firstKind_expression callee h.2.1 _
  | .function _ _ _, h, _ => by
    rw [expression]
    exact firstKind_functionHead h.1

theorem firstKind_statement (s : Statement) (h : s.Faithful) (rest : List (Kind × String)) :
    firstKind (words (statement s) ++ rest) = some s.opening := by
  cases s with
  | binding token name value =>
    have spelled : token.spelling = (.letWord, Kind.letWord.symbol) := h.1
    simp only [statement, List.cons_append, words_spelled, spelled, firstKind_cons, Statement.opening]
  | answer token value =>
    have spelled : token.spelling = (.returnWord, Kind.returnWord.symbol) := h.1
    simp only [statement, List.cons_append, words_spelled, spelled, firstKind_cons, Statement.opening]
  | assignment | conditional => rfl
  | function token parameters body =>
    rw [statement]
    exact firstKind_functionHead h.1

end

def inside : Expression → List Piece
  | .unary _ operator operand => .sign operator.kind :: expression operand
  | .binary _ operator left right => expression left ++ [.gap, .sign operator.kind, .gap] ++ expression right
  | e => expression e

theorem inside_of_not_parenthesized {e : Expression} (h : e.parenthesized = false) :
    inside e = expression e := by
  cases e with
  | unary | binary => cases h
  | _ => rfl

/-- Between its operands a binary operation has its operator. -/
theorem words_inside_binary (token : Token) (operator : BinaryOperator) (left right : Expression)
    (rest : List (Kind × String)) :
    words (inside (.binary token operator left right)) ++ rest =
      words (expression left) ++ (operator.kind, operator.kind.symbol) :: (words (expression right) ++ rest) := by
  rw [inside, words_append, words_append, List.append_assoc, List.append_assoc]
  rfl

theorem expression_of_parenthesized {e : Expression} (h : e.parenthesized = true) :
    expression e = [.sign .leftParen] ++ inside e ++ [.sign .rightParen] := by
  cases e with
  | unary => rfl
  | binary => simp only [expression, inside, List.append_assoc]
  | _ => cases h

/-- Whosever they are, there is one pair of parentheses around a condition. -/
theorem condition_eq_inside (guard : Expression) :
    condition guard (expression guard) = [.sign .leftParen] ++ inside guard ++ [.sign .rightParen] := by
  cases guard with
  | unary | binary => exact expression_of_parenthesized rfl
  | _ => rfl

def argumentLists : List (Token × List Expression) → List Piece
  | [] => []
  | (_, arguments) :: rest =>
    [.sign .leftParen] ++ separated (expressions arguments) ++ [.sign .rightParen] ++ argumentLists rest

end Layout

def Expression.called (callee : Expression) : List (Token × List Expression) → Expression
  | [] => callee
  | (token, arguments) :: rest => (Expression.call token callee arguments).called rest

def FaithfulCalls (calls : List (Token × List Expression)) : Prop :=
  ∀ call ∈ calls, call.1.Plain .leftParen ∧ Expression.AllFaithful call.2

namespace Expression
variable {e : Expression} {calls : List (Token × List Expression)}

theorem layout_called : Layout.expression (e.called calls) = Layout.expression e ++ Layout.argumentLists calls := by
  induction calls generalizing e with
  | nil => exact (List.append_nil _).symm
  | cons call rest ih => simp only [called, ih, Layout.expression, Layout.argumentLists, List.append_assoc]

theorem faithful_called : (e.called calls).Faithful ↔ e.Faithful ∧ FaithfulCalls calls := by
  induction calls generalizing e with
  | nil => simp [called, FaithfulCalls]
  | cons call rest ih =>
    rw [called, ih, Faithful, FaithfulCalls, FaithfulCalls, List.forall_mem_cons]
    exact ⟨fun ⟨⟨plain, callee, arguments⟩, others⟩ => ⟨callee, ⟨plain, arguments⟩, others⟩,
      fun ⟨callee, ⟨plain, arguments⟩, others⟩ => ⟨⟨plain, callee, arguments⟩, others⟩⟩

theorem alike_called {f : Expression} {others : List (Token × List Expression)} (callee : e.alike f = true)
    (same : List.Forall₂ (fun a b => a.1.alike b.1 = true ∧ allAlike a.2 b.2 = true) calls others) :
    (e.called calls).alike (f.called others) = true := by
  induction same generalizing e f with
  | nil => exact callee
  | cons first _ ih =>
    apply ih
    simp only [alike, Bool.and_eq_true]
    exact ⟨⟨first.1, callee⟩, first.2⟩

/-- Every expression is a callee that is no call, together with the calls behind it. -/
theorem exists_called (e : Expression) : ∃ head calls, e = called head calls ∧ head.held = 0 := by
  suffices all : ∀ calls, ∃ head others, e.called calls = called head others ∧ head.held = 0 from all []
  intro calls
  induction e using Expression.held.induct generalizing calls with
  | case1 token callee arguments ih => exact ih ((token, arguments) :: calls)
  | case2 e other =>
    refine ⟨e, calls, rfl, ?_⟩
    cases e with
    | call token callee arguments => exact (other token callee arguments rfl).elim
    | _ => rfl

end Expression
end LittleScript

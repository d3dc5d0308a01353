import LittleScript.Proofs.Grammar.Basic
import LittleScript.Proofs.Rule.Climbing

/-!
How the parser reads the tokens of a phrase. One rule belongs to each phrase; where the tokens of the
phrase stand in front of what may follow them, the rule builds the tree of the phrase, or it reports
the limit if the phrase has more levels than are free.
-/

namespace LittleScript.Grammar

open Run Rule

/-- The rule reads the value wherever the tokens stand ahead of a rest that may follow them. -/
def ReadsAhead {α : Type} (rule : Inner → Rule α) (tokens : List Token) (peak : Nat) (value : α)
    (mayFollow : List Token → Prop) : Prop :=
  ∀ limit levels s rest, mayFollow rest → s.ahead = tokens ++ rest → s.depth + levels = limit →
    Reads limit levels (rule (within limit levels)) s peak value (· = rest)

def moreItems {α : Type} (item : Rule α) (found : List α) : Rule (List α) := do
  let first ← item
  let all ← items item (first :: found)
  let _ ← expect .rightParen
  return all

def Unlinked (rest : List Token) : Prop := linkAbove? .lowest (headKind rest) = none

/-- What may be left ahead of a statement: the rest, or the rest without its semicolon. -/
def LeftOf (rest left : List Token) : Prop :=
  left = rest ∨ ∃ stop, stop.kind = .semicolon ∧ rest = stop :: left

structure ReadsLikeStatement (limit levels : Nat) (item : Rule Statement) : Prop where
  reads : ∀ {s tree peak goal}, Reads limit levels (statement (within limit levels)) s peak tree goal →
    Reads limit levels item s peak tree goal
  skips : ∀ {s t}, (statement (within limit levels)).run s = (none, t) → item.run s = (none, t)

/-- From `s`, a sequence of items finds the trees behind those already `found` and stops at `rest`. -/
structure Collects (limit levels : Nat) (item : Rule Statement) (stops : Kind → Bool)
    (found : List Statement) (s : State) (peak : Nat) (trees : List Statement) (rest : List Token) :
    Prop where
  fits : peak ≤ levels → ∃ t, sequenceFrom item stops found s = (found.reverse ++ trees, t) ∧
    s.Quiet t ∧ t.tokens = rest
  exceeds : levels < peak → s.TooDeep limit (sequenceFrom item stops found s).2

def Completes : Phrase → List Token → Nat → Prop
  | .expression layer tree held, tokens, peak =>
    ∀ limit levels precedence s rest, precedence.layer.rank ≤ layer.rank →
      linkAbove? layer.strength (headKind rest) = none → s.tokens = tokens ++ rest →
      s.depth + levels = limit → Climbs limit levels precedence s peak tree held rest
  | .whole tree, tokens, peak => ReadsAhead nextExpression tokens peak tree Unlinked
  | .arguments trees, tokens, peak =>
    if trees = [] then tokens = [] ∧ peak = 0
    else ∀ closing found, closing.kind = .rightParen →
      ReadsAhead (fun inner => moreItems (nextExpression inner) found) (tokens ++ [closing]) peak
        (found.reverse ++ trees) fun _ => True
  | .function token parameters body, tokens, peak =>
    ∃ others, tokens = token :: others ∧ token.kind = .fnWord ∧
      ReadsAhead signature others peak (parameters, body) fun _ => True
  | .block tree, tokens, peak => ReadsAhead nextBlock tokens peak tree fun _ => True
  | .alternative tree, tokens, peak =>
    ReadsAhead alternative tokens peak tree fun rest => tree = none → headKind rest ≠ .elseWord
  | .statement tree, tokens, peak =>
    ∀ limit levels s rest, (tree.openEnded = true → headKind rest ≠ .elseWord) →
      s.tokens = tokens ++ rest → s.depth + levels = limit →
      Reads limit levels (statement (within limit levels)) s peak tree (LeftOf rest)
  | .statements inBlock trees, tokens, peak =>
    ∀ limit levels item stops found s left rest, ReadsLikeStatement limit levels item →
      (∀ kind, stops kind = (inBlock && kind = .rightBrace)) →
      (rest = [] ∨ inBlock = true ∧ headKind rest = .rightBrace) →
      LeftOf tokens left → s.tokens = left ++ rest → s.depth + levels = limit →
      Collects limit levels item stops found s peak trees rest

section
variable {limit levels peak : Nat} {precedence : Precedence} {s : State} {rest : List Token}

/-- An operand is read by the rule for its first token. -/
theorem climbs_operandOn {token : Token} {others : List Token} {tree : Expression}
    (tokens : s.tokens = token :: others)
    (reads : Reads limit levels (operandOn (within limit levels) token) s peak tree (· = rest)) :
    Climbs limit levels precedence s peak tree 0 rest := by
  apply Climbs.operand
  apply Reads.current (State.current_of_tokens tokens)
  exact reads

theorem climbs_token {token : Token} {tree : Expression} (tokens : s.tokens = token :: rest)
    (run : (operandOn (within limit levels) token).run s = (some tree, s)) :
    Climbs limit levels precedence s 0 tree 0 rest :=
  climbs_operandOn tokens (.of_run run (.refl s) (State.ahead_of_tokens tokens))

end

/-- An operand in parentheses, or arguments, may end before a closing parenthesis. -/
theorem unlinked_of_kind {token : Token} {rest : List Token} {kind : Kind} (h : token.kind = kind)
    (unlinked : linkAbove? .lowest kind = none) : Unlinked (token :: rest) := by
  rw [Unlinked, headKind_cons, h]
  exact unlinked

end LittleScript.Grammar

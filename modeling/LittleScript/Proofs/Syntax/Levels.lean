import LittleScript.Syntax.Tree

/-!
How many levels are open at once while the canonical layout of a program is read. The parentheses of
the layout count: they make the layout of a deep tree need more levels than its source may have.
-/

namespace LittleScript

/-- The levels that an expression still holds when its last token is read: one for each call that
its callee is made of. -/
def Expression.held : Expression → Nat
  | .call _ callee _ => callee.held + 1
  | _ => 0

def Expression.parenthesized : Expression → Bool
  | .unary .. | .binary .. => true
  | _ => false

mutual

/-- The levels for an expression, without the one that it opens for itself. -/
def Expression.peak : Expression → Nat
  | .name _ | .integer _ _ | .boolean _ _ => 0
  | .unary _ _ operand => 2 + operand.peak
  | .binary _ _ left right => 1 + max left.peak (left.held + 2 + right.peak)
  | .call _ callee arguments => max callee.peak (callee.held + 1 + Expression.argumentsPeak arguments)
  | .function _ _ body => body.peak

def Expression.argumentsPeak : List Expression → Nat
  | [] => 0
  | e :: es => max (1 + e.peak) (Expression.argumentsPeak es)

def Block.peak : Block → Nat
  | .braced _ body => 1 + Statement.sequencePeak body

def Statement.sequencePeak : List Statement → Nat
  | [] => 0
  | s :: rest => max s.peak (Statement.sequencePeak rest)

def Block.alternativePeak : Option Block → Nat
  | none => 0
  | some other => other.peak

/-- The levels for a statement. A condition that has parentheses of its own gets no others. -/
def Statement.peak : Statement → Nat
  | .binding _ _ value | .answer _ value | .assignment _ _ value => 1 + value.peak
  | .conditional _ guard consequence other =>
    max (if guard.parenthesized then guard.peak else 1 + guard.peak)
      (max consequence.peak (Block.alternativePeak other))
  | .function _ _ body => body.peak

end

def Program.need (program : Program) : Nat := Statement.sequencePeak program

end LittleScript

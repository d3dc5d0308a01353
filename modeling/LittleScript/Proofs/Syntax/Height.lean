import LittleScript.Syntax.Tree

/-!
How many operators, calls and blocks lie on a way from a tree down to a leaf. Those that are left by their
first operand, or by what they call, can be counted apart from the others.
-/

namespace LittleScript

structure Count where
  /-- A binary operator that is left by its first operand, or a call that is left by what it calls. -/
  leftward : Nat
  /-- An operator, a call or a block that is left by any other part. -/
  inward : Nat

namespace Count

def all : Count := ⟨1, 1⟩

def onlyLeftward : Count := ⟨1, 0⟩

def onlyInward : Count := ⟨0, 1⟩

end Count

mutual

/-- The most that is counted on a way down. A function has no node of its own. -/
def Expression.height (c : Count) : Expression → Nat
  | .name _ | .integer _ _ | .boolean _ _ => 0
  | .unary _ _ operand => operand.height c + c.inward
  | .binary _ _ left right => max (left.height c + c.leftward) (right.height c + c.inward)
  | .call _ callee arguments =>
    max (callee.height c + c.leftward) (Expression.heightAll c arguments + c.inward)
  | .function _ _ body => body.height c

def Expression.heightAll (c : Count) : List Expression → Nat
  | [] => 0
  | e :: es => max (e.height c) (Expression.heightAll c es)

def Block.height (c : Count) : Block → Nat
  | .braced _ body => Statement.heightAll c body + c.inward

def Block.heightAny (c : Count) : Option Block → Nat
  | none => 0
  | some other => other.height c

def Statement.heightAll (c : Count) : List Statement → Nat
  | [] => 0
  | s :: rest => max (s.height c) (Statement.heightAll c rest)

def Statement.height (c : Count) : Statement → Nat
  | .binding _ _ value | .answer _ value | .assignment _ _ value => value.height c
  | .conditional _ guard consequence other =>
    max (guard.height c) (max (consequence.height c) (Block.heightAny c other))
  | .function _ _ body => body.height c

end

def Program.height (c : Count) (program : Program) : Nat := Statement.heightAll c program

section
variable {c : Count} {h : Nat}

theorem Expression.heightAll_le {es : List Expression} (each : ∀ e ∈ es, e.height c ≤ h) :
    Expression.heightAll c es ≤ h := by
  induction es with
  | nil => exact Nat.zero_le h
  | cons e es ih =>
    exact Nat.max_le.2
      ⟨each e List.mem_cons_self, ih fun other mem => each other (List.mem_cons_of_mem e mem)⟩

theorem Statement.heightAll_le {body : List Statement} (each : ∀ s ∈ body, s.height c ≤ h) :
    Statement.heightAll c body ≤ h := by
  induction body with
  | nil => exact Nat.zero_le h
  | cons s body ih =>
    exact Nat.max_le.2
      ⟨each s List.mem_cons_self, ih fun other mem => each other (List.mem_cons_of_mem s mem)⟩

end

-- Each node of a way is left either way, so the counts of both kinds of steps add up to at least the whole.
mutual

private theorem Expression.height_all_le :
    (e : Expression) → e.height .all ≤ e.height .onlyInward + e.height .onlyLeftward
  | .name _ | .integer _ _ | .boolean _ _ => Nat.zero_le _
  | .unary _ _ operand => by
    have inside := operand.height_all_le
    simp only [Expression.height, Count.all, Count.onlyInward, Count.onlyLeftward] at inside ⊢
    omega
  | .binary _ _ left right => by
    have first := left.height_all_le
    have second := right.height_all_le
    simp only [Expression.height, Count.all, Count.onlyInward, Count.onlyLeftward] at first second ⊢
    omega
  | .call _ callee arguments => by
    have first := callee.height_all_le
    have second := Expression.heightAll_all_le arguments
    simp only [Expression.height, Count.all, Count.onlyInward, Count.onlyLeftward] at first second ⊢
    omega
  | .function _ _ body => body.height_all_le

private theorem Expression.heightAll_all_le : (es : List Expression) →
    Expression.heightAll .all es ≤
      Expression.heightAll .onlyInward es + Expression.heightAll .onlyLeftward es
  | [] => Nat.zero_le _
  | e :: es => by
    have first := e.height_all_le
    have others := Expression.heightAll_all_le es
    simp only [Expression.heightAll] at others ⊢
    omega

private theorem Block.height_all_le : (b : Block) → b.height .all ≤ b.height .onlyInward + b.height .onlyLeftward
  | .braced _ body => by
    have inside := Statement.heightAll_all_le body
    simp only [Block.height, Count.all, Count.onlyInward, Count.onlyLeftward] at inside ⊢
    omega

private theorem Block.heightAny_all_le : (other : Option Block) →
    Block.heightAny .all other ≤
      Block.heightAny .onlyInward other + Block.heightAny .onlyLeftward other
  | none => Nat.zero_le _
  | some other => other.height_all_le

private theorem Statement.heightAll_all_le : (body : List Statement) →
    Statement.heightAll .all body ≤
      Statement.heightAll .onlyInward body + Statement.heightAll .onlyLeftward body
  | [] => Nat.zero_le _
  | s :: rest => by
    have first := s.height_all_le
    have others := Statement.heightAll_all_le rest
    simp only [Statement.heightAll] at others ⊢
    omega

private theorem Statement.height_all_le :
    (s : Statement) → s.height .all ≤ s.height .onlyInward + s.height .onlyLeftward
  | .binding _ _ value | .answer _ value | .assignment _ _ value => value.height_all_le
  | .conditional _ guard consequence other => by
    have test := guard.height_all_le
    have block := consequence.height_all_le
    have otherwise := Block.heightAny_all_le other
    simp only [Statement.height] at test block otherwise ⊢
    omega
  | .function _ _ body => body.height_all_le

end

theorem Program.height_all_le (program : Program) :
    program.height .all ≤ program.height .onlyInward + program.height .onlyLeftward :=
  Statement.heightAll_all_le program

/-- The greatest height that can be read with some levels to open. One of them is for the whole. The others
are open twice: first inside of its first operand, and then, as they are closed behind that, for links. A
unary operator takes the place of the last link, and without other levels only a block can be read. -/
def Count.greatest (c : Count) : Nat → Nat
  | 0 => 0
  | levels + 1 => c.greatest levels + max (c.leftward * levels) (c.inward + c.leftward * (levels - 1))

/-- Links behind a first operand may take all levels below it. -/
theorem Count.leftward_le_greatest (c : Count) (levels : Nat) :
    c.greatest levels + c.leftward * levels ≤ c.greatest (levels + 1) :=
  Nat.add_le_add_left (Nat.le_max_left _ _) _

/-- What stands inside of a node may be followed by links on the other levels. -/
theorem Count.inward_le_greatest (c : Count) (levels : Nat) :
    c.greatest levels + (c.inward + c.leftward * (levels - 1)) ≤ c.greatest (levels + 1) :=
  Nat.add_le_add_left (Nat.le_max_right _ _) _

/-- Each level allows for as many nodes as there are levels below it. -/
theorem Count.greatest_all (levels : Nat) : all.greatest (levels + 1) = levels * (levels + 1) / 2 + 1 := by
  induction levels with
  | zero => rfl
  | succ levels ih =>
    have next : (levels + 1) * (levels + 1 + 1) = levels * (levels + 1) + (levels + 1) * 2 := by
      rw [Nat.mul_comm levels, ← Nat.mul_add]
    rw [greatest, ih, next, Nat.add_mul_div_right _ _ (by decide : 0 < 2)]
    simp only [all, Nat.one_mul, Nat.add_sub_cancel]
    omega

/-- The steps that do not go to the left are no more than the levels. -/
theorem Count.greatest_onlyInward (levels : Nat) : onlyInward.greatest levels = levels := by
  induction levels with
  | zero => rfl
  | succ levels ih =>
    rw [greatest, ih]
    simp only [onlyInward, Nat.zero_mul]
    omega

end LittleScript

import LittleScript.Proofs.Rule.Abreast.Basic
import LittleScript.Proofs.Rule.Nested

/-!
All rules of the language stay abreast in two runs beside each other. Nothing but the end of a statement
uses a semicolon, so no rule looks over one.
-/

namespace LittleScript

open Run

structure Inner.Abreast (c : Surroundings) (inner : Inner) : Prop where
  expression : ∀ precedence s t, s.Beside c t →
    Rule.Abreast c (Expression.relocate c.move) (inner.expression precedence) (inner.expression precedence)
      State.Inside s t
  block : ∀ s t, s.Beside c t → s.current.kind = .leftBrace →
    Rule.Abreast c (Block.relocate c.move) inner.block inner.block State.Inside s t

namespace Rule.Abreast
variable {c : Surroundings} {inner : Inner} {s t : State}

private theorem nextExpression (h : inner.Abreast c) :
    Item c (Expression.relocate c.move) (nextExpression inner) := by
  intro s t beside inside
  apply advance beside inside
  exact h.expression .lowest _ _

private theorem nextBlock (h : inner.Abreast c) : Item c (Block.relocate c.move) (nextBlock inner) := by
  intro s t beside inside
  apply expected beside inside
  intro opens moved
  exact h.block _ _ moved opens

/-- The end of a statement: a semicolon, behind which nothing more is read of it. -/
private theorem ended {α : Type} {move : α → α} {x y : α} (beside : s.Beside c t) (inside : s.Inside)
    (same : y = move x) :
    Abreast c move (expect .semicolon >>= fun _ => pure x) (expect .semicolon >>= fun _ => pure y)
      State.Anywhere s t := by
  apply expected beside inside
  intro _ moved
  exact .pure moved same trivial

private theorem assigned (h : inner.Abreast c) (beside : s.Beside c t) (inside : s.Inside) :
    Abreast c (Expression.relocate c.move) (assigned inner) (assigned inner) State.Anywhere s t := by
  apply expected beside inside
  intro sign beside
  apply (nextExpression h _ _ beside (State.inside_of_kind sign (by decide))).bind
  intro value s t beside inside
  exact ended beside inside rfl

private theorem binding (h : inner.Abreast c) (beside : s.Beside c t) (inside : s.Inside) :
    Abreast c (Statement.relocate c.move) (binding inner) (binding inner) State.Anywhere s t := by
  apply current beside
  apply expected beside inside
  intro name beside
  apply (assigned h beside (State.inside_of_kind name (by decide))).bind
  intro value s t beside _
  exact .pure beside rfl trivial

private theorem answer (h : inner.Abreast c) (beside : s.Beside c t) (inside : s.Inside) :
    Abreast c (Statement.relocate c.move) (answer inner) (answer inner) State.Anywhere s t := by
  apply current beside
  apply (nextExpression h _ _ beside inside).bind
  intro value s t beside inside
  exact ended beside inside rfl

private theorem assignment (h : inner.Abreast c) (beside : s.Beside c t) (inside : s.Inside) :
    Abreast c (Statement.relocate c.move) (assignment inner) (assignment inner) State.Anywhere s t := by
  apply current beside
  apply (assigned h beside inside).bind
  intro value s t beside _
  exact .pure beside rfl trivial

private theorem alternative (h : inner.Abreast c) :
    Item c (Block.relocateAny c.move) (alternative inner) := by
  intro s t beside inside
  apply peek beside inside
  rw [Token.kind_relocate]
  split
  · rename_i word
    apply advance beside inside
    intro beside
    apply (nextBlock h _ _ beside (State.inside_of_kind word (by decide))).bind
    intro block s t beside inside
    exact .pure beside rfl inside
  · exact .pure beside rfl inside

private theorem conditional (h : inner.Abreast c) :
    Item c (Statement.relocate c.move) (conditional inner) := by
  intro s t beside inside
  apply current beside
  apply expected beside inside
  intro opens beside
  apply (nextExpression h _ _ beside (State.inside_of_kind opens (by decide))).bind
  intro condition s t beside inside
  apply expected beside inside
  intro closes beside
  apply (nextBlock h _ _ beside (State.inside_of_kind closes (by decide))).bind
  intro consequence s t beside inside
  apply (alternative h s t beside inside).bind
  intro other s t beside inside
  exact .pure beside rfl inside

private theorem parameter : Item c (Name.relocate c.move) parameter := by
  intro s t beside inside
  apply expected beside inside
  intro named moved
  exact .pure moved rfl (State.inside_of_kind named (by decide))

private theorem signature (h : inner.Abreast c) :
    Item c (Prod.map (List.map (Name.relocate c.move)) (Block.relocate c.move)) (signature inner) := by
  intro s t beside inside
  apply expected beside inside
  intro opens beside
  apply (listed parameter _ _ beside (State.inside_of_kind opens (by decide))).bind
  intro parameters s t beside inside
  apply (nextBlock h s t beside inside).bind
  intro body s t beside inside
  exact .pure beside rfl inside

private theorem functionStatement (h : inner.Abreast c) (beside : s.Beside c t) (inside : s.Inside) :
    Abreast c (Statement.relocate c.move) (functionStatement inner) (functionStatement inner)
      State.Anywhere s t := by
  apply current beside
  apply (signature h s t beside inside).bind
  rintro ⟨parameters, body⟩ s t beside inside
  dsimp only [Prod.map]
  apply peek beside inside
  rw [Token.kind_relocate]
  split
  · apply advance beside inside
    intro beside
    exact .pure beside rfl trivial
  · exact .pure beside rfl trivial

private theorem integer (token : Token) (beside : s.Beside c t) (inside : s.Inside) :
    Abreast c (Expression.relocate c.move) (integer token) (integer (token.relocate c.move)) State.Inside
      s t := by
  unfold Rule.integer
  rw [Token.literal_relocate]
  cases Numeral.read? token.literal with
  | none => exact .refuse beside _ _
  | some value => exact .pure beside rfl inside

private theorem unary (h : inner.Abreast c) (token : Token) (operator : UnaryOperator) (beside : s.Beside c t)
    (inside : s.Inside) :
    Abreast c (Expression.relocate c.move) (unary inner token operator)
      (unary inner (token.relocate c.move) operator) State.Inside s t := by
  apply advance beside inside
  intro beside
  apply (h.expression .unary _ _ beside).bind
  intro operand s t beside inside
  exact .pure beside rfl inside

private theorem grouped (h : inner.Abreast c) : Item c (Expression.relocate c.move) (grouped inner) := by
  intro s t beside inside
  apply (nextExpression h s t beside inside).bind
  intro expression s t beside inside
  apply expected beside inside
  intro closes beside
  exact .pure beside rfl (State.inside_of_kind closes (by decide))

private theorem function (h : inner.Abreast c) (token : Token) (beside : s.Beside c t) (inside : s.Inside) :
    Abreast c (Expression.relocate c.move) (function inner token)
      (function inner (token.relocate c.move)) State.Inside s t := by
  apply (signature h s t beside inside).bind
  rintro ⟨parameters, body⟩ s t beside inside
  exact .pure beside rfl inside

theorem operand (h : inner.Abreast c) (beside : s.Beside c t) :
    Abreast c (Expression.relocate c.move) (operand inner) (operand inner) State.Inside s t := by
  apply current beside
  have inside : s.current.kind ≠ .semicolon → s.Inside := id
  unfold operandOn
  rw [Token.kind_relocate]
  generalize s.current.kind = kind at inside
  cases kind with
  | identifier => exact .pure beside rfl (inside (by decide))
  | integer => exact integer _ beside (inside (by decide))
  | bang => exact unary h _ .bang beside (inside (by decide))
  | minus => exact unary h _ .minus beside (inside (by decide))
  | trueWord => exact .pure beside rfl (inside (by decide))
  | falseWord => exact .pure beside rfl (inside (by decide))
  | leftParen => exact grouped h s t beside (inside (by decide))
  | fnWord => exact function h _ beside (inside (by decide))
  | _ => exact .refuse beside _ _

/-- The token of a link follows, so what stands in front of it is not the end of a statement. -/
theorem linked (h : inner.Abreast c) (link : Link) (left : Expression) (beside : s.Beside c t)
    (inside : s.Inside) (follows : s.peek.kind ≠ .semicolon) :
    Abreast c (Expression.relocate c.move) (linked inner link left)
      (linked inner link (left.relocate c.move)) State.Inside s t := by
  apply advance beside inside
  intro beside
  apply current beside
  cases link with
  | binary operator =>
    apply advance beside follows
    intro beside
    apply (h.expression _ _ _ beside).bind
    intro right s t beside inside
    exact .pure beside rfl inside
  | call =>
    apply (listed (nextExpression h) _ _ beside follows).bind
    intro arguments s t beside inside
    refine .pure beside ?_ inside
    rw [Expression.relocate, Expression.relocateAll_eq_map]

private theorem statementOn (h : inner.Abreast c) (beside : s.Beside c t) :
    Abreast c (Statement.relocate c.move) (statementOn inner s.current)
      (statementOn inner (s.current.relocate c.move)) State.Anywhere s t := by
  have inside : s.current.kind ≠ .semicolon → s.Inside := id
  unfold Rule.statementOn
  rw [Token.kind_relocate]
  generalize s.current.kind = kind at inside
  cases kind with
  | letWord => exact binding h beside (inside (by decide))
  | returnWord => exact answer h beside (inside (by decide))
  | fnWord => exact functionStatement h beside (inside (by decide))
  | ifWord => exact (conditional h s t beside (inside (by decide))).weaken
  | identifier => exact assignment h beside (inside (by decide))
  | illegal => exact .refuse beside _ _
  | _ => exact .skip beside

/-- A statement may start anywhere, also on a semicolon. -/
private theorem statement (h : inner.Abreast c) (beside : s.Beside c t) :
    Abreast c (Statement.relocate c.move) (statement inner) (statement inner) State.Anywhere s t := by
  have begun : s.begun.Beside c t.begun := beside.record rfl rfl
  have body := statementOn h begun
  refine ⟨?_, ?_, fun _ => trivial⟩
  · rw [run_statement, run_statement, beside.current]
    exact body.value
  · rw [run_statement, run_statement, beside.current]
    exact body.beside.record rfl rfl

theorem topStatement {limit : Nat} (h : (within limit limit).Abreast c) (beside : s.Beside c t) :
    Abreast c (Statement.relocate c.move) (topStatement limit) (topStatement limit) State.Anywhere s t := by
  apply (statement h beside).bind
  intro tree s t beside _
  exact (Abreast.pure (beside.record rfl rfl) rfl trivial).of_run_eq rfl rfl

/-- A block that is not closed is reported with the place of its opening brace. -/
private theorem closed (tree : Block) (beside : s.Beside c t) :
    Abreast c (Block.relocate c.move) (closed tree) (closed (tree.relocate c.move)) State.Inside s t := by
  apply current beside
  rw [Token.kind_relocate]
  split
  · rename_i closes
    exact .pure beside rfl (State.inside_of_kind closes (by decide))
  · cases tree with
    | braced token statements => exact .refuse beside (.unterminatedBlock token.location) _

/-- A block is read only where nothing more is behind, so its statements stay abreast to their end. -/
theorem block {limit levels : Nat} (h : (within limit levels).Abreast c) (beside : s.Beside c t)
    (opens : s.current.kind = .leftBrace) :
    Abreast c (Block.relocate c.move) (block limit (levels + 1)) (block limit (levels + 1)) State.Inside
      s t := by
  have nothing := beside.open_of_brace opens
  by_cases room : s.depth < limit
  · have room' : t.depth < limit := by rw [beside.depth]; exact room
    have entry : s.takeLevel.advance.Beside c t.takeLevel.advance :=
      beside.takeLevel.advance_of_closed fun more => absurd nothing more
    obtain ⟨found, ended⟩ := sequenceFrom (fun _ _ beside => statement h beside) nothing
      (· = .rightBrace) [] [] entry
    apply (closed _ (ended.returnLevels 1)).of_run_eq (run_block_of_room room)
    rw [run_block_of_room room', beside.current]
    have same : Block.braced (s.current.relocate c.move) (contents limit levels t).1 =
        Block.relocate c.move (.braced s.current (contents limit levels s).1) := by
      rw [Block.relocate, Statement.relocateAll_eq_map]
      exact congrArg _ found
    rw [same]
    rfl
  · have room' : ¬ t.depth < limit := by rw [beside.depth]; exact room
    refine (Abreast.refuseLevel limit beside).of_run_eq ?_ ?_
    · rw [run_block_succ, if_neg room, run_refuseLevel]
    · rw [run_block_succ, if_neg room', run_refuseLevel]

end Rule.Abreast
end LittleScript

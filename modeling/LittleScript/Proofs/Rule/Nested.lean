import LittleScript.Parsed
import LittleScript.Proofs.Run.Stretch
import LittleScript.Proofs.Rule.Sequencing

/-!
How the nested rules run: what they do with a level, with a link and without one.
-/

namespace LittleScript

theorem linkAbove?_eq_some {precedence : Precedence} {kind : Kind} {link : Link} :
    linkAbove? precedence kind = some link ↔
      Link.ofKind? kind = some link ∧ precedence < link.precedence := by
  rw [linkAbove?, Option.filter_eq_some_iff, decide_eq_true_iff]

/-- An operator makes its own link and no other token does. -/
theorem ofKind?_binary {kind : Kind} {operator : BinaryOperator} :
    Link.ofKind? kind = some (.binary operator) ↔ kind = operator.kind := by
  cases kind <;> cases operator <;> decide

theorem ofKind?_call {kind : Kind} : Link.ofKind? kind = some .call ↔ kind = .leftParen := by
  cases kind <;> decide

/-- Nothing binds tighter than a call. -/
theorem linkAbove?_call (kind : Kind) : linkAbove? .call kind = none := by
  cases kind <;> rfl

/-- What is no link above one strength is none above a greater one. -/
theorem linkAbove?_mono {low high : Precedence} {kind : Kind} (le : low.rank ≤ high.rank)
    (h : linkAbove? low kind = none) : linkAbove? high kind = none := by
  rw [linkAbove?, Option.filter_eq_none_iff] at h ⊢
  intro link made above
  apply h link made
  exact decide_eq_true (Nat.lt_of_le_of_lt le (of_decide_eq_true above))

end LittleScript

namespace LittleScript.Rule

open Run

variable {limit levels : Nat} {precedence : Precedence} {left : Expression} {held : Nat} {s : State}

abbrev refused (limit : Nat) (s : State) : State :=
  s.record (.diagnosed ⟨.nestingTooDeep limit, s.current.location⟩)

abbrev entered (precedence : Precedence) (s : State) : State :=
  s.record (.expressionBegun s.current precedence)

/-- What needs a level is done with one more open, or it is refused. -/
theorem run_takeLevel_bind {β : Type} (follow : Unit → Rule β) (s : State) :
    (takeLevel limit >>= follow).run s =
      if s.depth < limit then (follow ()).run s.takeLevel else (none, refused limit s) := by
  rw [run_bind, run_takeLevel]
  split
  · rfl
  · rfl

theorem run_expression_zero :
    (expression limit 0 precedence).run s = (none, refused limit (entered precedence s)) := by
  rw [expression]
  rfl

/-- An expression opens a level, climbs and closes what its chain holds. -/
theorem run_expression_succ :
    (expression limit (levels + 1) precedence).run s =
      if s.depth < limit then
        (Chain.andThen (operand (within limit levels)) 1 fun left =>
          links limit levels precedence left 1).close.run (entered precedence s).takeLevel
      else (none, refused limit (entered precedence s)) := by
  rw [expression]
  exact run_takeLevel_bind _ (entered precedence s)

theorem run_links_unlinked (h : linkAbove? precedence s.peek.kind = none) :
    (links limit levels precedence left held).run s = (some left, held, s) := by
  rw [links.eq_def]
  simp only [Chain.run_andThen, run_peek, Chain.next_some, h, Chain.run_done]

theorem run_links_zero {link : Link} (h : linkAbove? precedence s.peek.kind = some link) :
    (links limit 0 precedence left held).run s = (none, held, refused limit s) := by
  rw [links]
  simp only [Chain.run_andThen, run_peek, Chain.next_some, h, run_refuseLevel, Chain.next_none]

/-- A link opens a level, reads on and leaves the level to the rest of the chain. -/
theorem run_links_succ {link : Link} (h : linkAbove? precedence s.peek.kind = some link) :
    (links limit (levels + 1) precedence left held).run s =
      if s.depth < limit then
        (Chain.andThen (linked (within limit levels) link left) (held + 1) fun left =>
          links limit levels precedence left (held + 1)).run s.takeLevel
      else (none, held, refused limit s) := by
  rw [links]
  simp only [Chain.run_andThen, run_peek, Chain.next_some, h, run_takeLevel]
  by_cases room : s.depth < limit
  · rw [if_pos room, if_pos room]
    rfl
  · rw [if_neg room, if_neg room]
    rfl

theorem run_block_zero : (block limit 0).run s = (none, refused limit s) := by
  rw [block]
  rfl

/-- A block opens a level, closes it and then has to end on its brace. -/
theorem run_block_succ :
    (block limit (levels + 1)).run s =
      if s.depth < limit then
        ((openBlock (within limit levels)).andReturnLevels 1 >>= closed).run s.takeLevel
      else (none, refused limit s) := by
  rw [block]
  exact run_takeLevel_bind _ s

abbrev contents (limit levels : Nat) (s : State) : List Statement × State :=
  sequenceFrom (statement (within limit levels)) (· = .rightBrace) [] s.takeLevel.advance

/-- Where a level is left, a block is what it holds and its closing brace. -/
theorem run_block_of_room (room : s.depth < limit) :
    (block limit (levels + 1)).run s =
      (closed (.braced s.current (contents limit levels s).1)).run
        ((contents limit levels s).2.returnLevels 1) := by
  rw [run_block_succ, if_pos room]
  rfl

/-- A statement is read between the entries for its beginning and its end. -/
theorem run_statement (inner : Inner) (s : State) :
    (statement inner).run s = (((statementOn inner s.current).run s.begun).1,
      ((statementOn inner s.current).run s.begun).2.record
        (.statementEnded s.current ((statementOn inner s.current).run s.begun).1.isSome)) := rfl

/-- A statement of the program itself is kept if it is built. -/
theorem run_topStatement (limit : Nat) (s : State) :
    (topStatement limit).run s = next (fun tree => do
      record (.kept tree)
      return tree) ((statement (within limit limit)).run s) := rfl

theorem run_closed (tree : Block) (s : State) :
    (closed tree).run s =
      if s.current.kind = .rightBrace then (some tree, s)
      else (none, s.record
        (.diagnosed ⟨.unterminatedBlock tree.token.location, s.current.location⟩)) := by
  simp only [closed, run_bind, run_current, next_some]
  split <;> rfl

/-- What follows in a chain starts where its rule ended. -/
theorem leads_chain {α : Type} (rule : Rule α) (held : Nat) (follow : α → Chain) (s : State) :
    (rule.run s).2.Leads ((Chain.andThen rule held follow).run s).2.2 := by
  rw [Chain.run_andThen]
  cases rule.run s with
  | mk value t =>
    cases value with
    | none => exact .refl t
    | some a => exact (follow a).leads t

/-- There is something to read where a link follows. -/
theorem proper_of_link {link : Link} (h : linkAbove? precedence s.peek.kind = some link) :
    s.tokens ≠ [] := by
  apply State.ne_nil_of_peek
  intro mark
  rw [mark] at h
  cases h

end LittleScript.Rule

import Mathlib.Logic.Function.Iterate
import LittleScript.Proofs.Rule.Climbing
import LittleScript.Proofs.Rule.Follow.Nested
import LittleScript.Proofs.Run.Level

/-!
Every rule of the language closes the levels that it opens, wherever it gives up. Only a chain of links leaves
levels open, as many as it says, and the expression that it belongs to closes them.
-/

namespace LittleScript

open Run

namespace Rule

inductive OfLanguage (limit levels : Nat) : {α : Type} → Rule α → Prop where
  | topStatement : OfLanguage limit levels (topStatement limit)
  | statement : OfLanguage limit levels (statement (within limit levels))
  | statementOn (token : Token) : OfLanguage limit levels (statementOn (within limit levels) token)
  | binding : OfLanguage limit levels (binding (within limit levels))
  | answer : OfLanguage limit levels (answer (within limit levels))
  | assignment : OfLanguage limit levels (assignment (within limit levels))
  | assigned : OfLanguage limit levels (assigned (within limit levels))
  | conditional : OfLanguage limit levels (conditional (within limit levels))
  | alternative : OfLanguage limit levels (alternative (within limit levels))
  | functionStatement : OfLanguage limit levels (functionStatement (within limit levels))
  | signature : OfLanguage limit levels (signature (within limit levels))
  | parameters : OfLanguage limit levels (listed parameter)
  | parameter : OfLanguage limit levels parameter
  | nextBlock : OfLanguage limit levels (nextBlock (within limit levels))
  | block : OfLanguage limit levels (block limit levels)
  | openBlock : OfLanguage limit levels (openBlock (within limit levels))
  | closed (tree : Block) : OfLanguage limit levels (closed tree)
  | nextExpression : OfLanguage limit levels (nextExpression (within limit levels))
  | expression (precedence : Precedence) : OfLanguage limit levels (expression limit levels precedence)
  | operand : OfLanguage limit levels (operand (within limit levels))
  | operandOn (token : Token) : OfLanguage limit levels (operandOn (within limit levels) token)
  | integer (token : Token) : OfLanguage limit levels (integer token)
  | unary (token : Token) (operator : UnaryOperator) :
      OfLanguage limit levels (unary (within limit levels) token operator)
  | grouped : OfLanguage limit levels (grouped (within limit levels))
  | function (token : Token) : OfLanguage limit levels (function (within limit levels) token)
  | linked (link : Link) (left : Expression) : OfLanguage limit levels (linked (within limit levels) link left)
  | arguments : OfLanguage limit levels (listed (nextExpression (within limit levels)))

/-- From `s` on, the rule closes the levels that it opens, be it with a value or without one, and the levels
are kept on the way. -/
structure KeepsLevels (limit : Nat) {α : Type} (rule : Rule α) (s : State) : Prop where
  depth : (rule.run s).2.depth = s.depth
  kept : s.LevelsKept limit (rule.run s).2

section
variable {limit levels : Nat} {α β : Type} {rule : Rule α} {s t : State}

private theorem KeepsLevels.of_run {value : Option α} (run : rule.run s = (value, t)) (depth : t.depth = s.depth)
    (kept : s.LevelsKept limit t) : KeepsLevels limit rule s := by
  refine ⟨?_, ?_⟩
  · rw [run]
    exact depth
  · rw [run]
    exact kept

private theorem Follows.keepsLevels (h : Follows limit rule s) (room : s.depth ≤ limit) : KeepsLevels limit rule s :=
  ⟨h.depth, h.levelsKept room⟩

private theorem keepsLevels_pure (a : α) (room : s.depth ≤ limit) : KeepsLevels limit (pure a : Rule α) s :=
  .of_run (run_pure a s) rfl (.refl room)

private theorem keepsLevels_refuse (cause : Cause) (location : Location) (room : s.depth ≤ limit) :
    KeepsLevels limit (refuse cause location : Rule α) s :=
  .of_run (run_refuse cause location s) rfl (.record room rfl)

private theorem keepsLevels_integer (token : Token) (room : s.depth ≤ limit) :
    KeepsLevels limit (integer token) s := by
  unfold integer
  split
  · exact keepsLevels_pure _ room
  · exact keepsLevels_refuse _ _ room

/-- Whichever operand the token begins. -/
private theorem keepsLevels_operandOn {inner : Inner} (h : inner.Follows limit) (token : Token)
    (room : s.depth ≤ limit) : KeepsLevels limit (operandOn inner token) s := by
  unfold operandOn
  split
  · exact keepsLevels_pure _ room
  · exact keepsLevels_integer token room
  · exact (Follows.unary h token .bang).keepsLevels room
  · exact (Follows.unary h token .minus).keepsLevels room
  · exact keepsLevels_pure _ room
  · exact keepsLevels_pure _ room
  · exact (Follows.grouped h).keepsLevels room
  · exact (Follows.function h token).keepsLevels room
  · exact keepsLevels_refuse _ _ room
  · exact keepsLevels_refuse _ _ room

/-- Whichever statement the token begins. -/
private theorem keepsLevels_statementOn {inner : Inner} (h : inner.Follows limit) (token : Token)
    (room : s.depth ≤ limit) : KeepsLevels limit (statementOn inner token) s := by
  unfold statementOn
  split
  · exact (Follows.binding h).keepsLevels room
  · exact (Follows.answer h).keepsLevels room
  · exact (Follows.functionStatement h).keepsLevels room
  · exact (Follows.conditional h).keepsLevels room
  · exact (Follows.assignment h).keepsLevels room
  · exact keepsLevels_refuse _ _ room
  · exact .of_run (run_skip s) rfl (.refl room)

private theorem keepsLevels_statement {inner : Inner} (h : inner.Follows limit) (room : s.depth ≤ limit) :
    KeepsLevels limit (statement inner) s := by
  have inside : KeepsLevels limit (statementOn inner s.current) s.begun := keepsLevels_statementOn h s.current room
  have begun : s.LevelsKept limit s.begun := .record room rfl
  have read := begun.trans inside.kept
  exact .of_run (run_statement inner s) inside.depth (read.trans (.record read.le rfl))

private theorem keepsLevels_topStatement (h : (within limit limit).Follows limit) (room : s.depth ≤ limit) :
    KeepsLevels limit (topStatement limit) s := by
  have inside : KeepsLevels limit (statement (within limit limit)) s := keepsLevels_statement h room
  cases run : (statement (within limit limit)).run s with
  | mk value t =>
    obtain ⟨depth, kept⟩ := inside
    rw [run] at depth kept
    cases value with
    | none =>
      have whole : (topStatement limit).run s = (none, t) := by rw [run_topStatement, run, next_none]
      exact .of_run whole depth kept
    | some tree =>
      have whole : (topStatement limit).run s = (some tree, t.record (.kept tree)) := by
        rw [run_topStatement, run, next_some]
        rfl
      exact .of_run whole depth (kept.trans (.record kept.le rfl))

private theorem keepsLevels_closed (tree : Block) (room : s.depth ≤ limit) : KeepsLevels limit (closed tree) s := by
  by_cases closes : s.current.kind = .rightBrace
  · exact .of_run ((run_closed tree s).trans (if_pos closes)) rfl (.refl room)
  · exact .of_run ((run_closed tree s).trans (if_neg closes)) rfl (.record room rfl)

/-- What stands in a block is read from the second token on, whatever the first one is. -/
private theorem keepsLevels_openBlock {inner : Inner} (h : inner.Follows limit) (room : s.depth ≤ limit) :
    KeepsLevels limit (openBlock inner) s := by
  obtain ⟨inside, -⟩ := course_sequenceFrom (passes_statement h) (· = .rightBrace) [] s.advance
  have moved : s.LevelsKept limit s.advance := .advance room
  exact ⟨inside.depth, moved.trans (inside.levelsKept room)⟩

theorem keepsLevels_block (levels : Nat) (room : s.depth ≤ limit) : KeepsLevels limit (block limit levels) s := by
  have refusedHere : s.LevelsKept limit (refused limit s) := .record room rfl
  cases levels with
  | zero => exact .of_run run_block_zero rfl refusedHere
  | succ levels =>
    by_cases free : s.depth < limit
    · obtain ⟨inside, -⟩ := course_sequenceFrom (passes_statement (followsWithin limit levels).inner)
        (· = .rightBrace) [] s.takeLevel.advance
      have nested := State.LevelsKept.nested free (inside.levelsKept free) inside.depth
      have depth : ((contents limit levels s).2.returnLevels 1).depth = s.depth := by
        rw [State.depth_returnLevels, inside.depth]
        rfl
      have last := keepsLevels_closed (.braced s.current (contents limit levels s).1) nested.le
      refine ⟨?_, ?_⟩
      · rw [run_block_of_room free, last.depth, depth]
      · rw [run_block_of_room free]
        exact nested.trans last.kept
    · exact .of_run (run_block_succ.trans (if_neg free)) rfl refusedHere

/-- Every rule closes its levels, in every state that has no more levels open than there are. -/
private theorem keepsLevels_of_language (h : OfLanguage limit levels rule) (room : s.depth ≤ limit) :
    KeepsLevels limit rule s := by
  have inner := (followsWithin limit levels).inner
  cases h with
  | topStatement => exact keepsLevels_topStatement (followsWithin limit limit).inner room
  | statement => exact keepsLevels_statement inner room
  | statementOn token => exact keepsLevels_statementOn inner token room
  | binding => exact (Follows.binding inner).keepsLevels room
  | answer => exact (Follows.answer inner).keepsLevels room
  | assignment => exact (Follows.assignment inner).keepsLevels room
  | assigned => exact (Follows.assigned inner).keepsLevels room
  | conditional => exact (Follows.conditional inner).keepsLevels room
  | alternative => exact (Follows.alternative inner).keepsLevels room
  | functionStatement => exact (Follows.functionStatement inner).keepsLevels room
  | signature => exact (Follows.signature inner).keepsLevels room
  | parameters => exact (Follows.listed fun _ => Follows.parameter).keepsLevels room
  | parameter => exact Follows.parameter.keepsLevels room
  | nextBlock => exact (Follows.nextBlock inner).keepsLevels room
  | block => exact keepsLevels_block levels room
  | openBlock => exact keepsLevels_openBlock inner room
  | closed tree => exact keepsLevels_closed tree room
  | nextExpression => exact (Follows.nextExpression inner).keepsLevels room
  | expression precedence => exact (inner.expression precedence s).keepsLevels room
  | operand => exact (Follows.operand inner).keepsLevels room
  | operandOn token => exact keepsLevels_operandOn inner token room
  | integer token => exact keepsLevels_integer token room
  | unary token operator => exact (Follows.unary inner token operator).keepsLevels room
  | grouped => exact (Follows.grouped inner).keepsLevels room
  | function token => exact (Follows.function inner token).keepsLevels room
  | linked link left => exact (Follows.linked inner link left).keepsLevels room
  | arguments => exact (Follows.listed fun _ => Follows.nextExpression inner).keepsLevels room

/-- A chain of links with `held` levels open before leaves as many open as it says. -/
private theorem levelsKept_of_chainFollows {chain : Chain} {held : Nat} (h : ChainFollows limit chain held s)
    (room : s.depth ≤ limit) :
    (chain.run s).2.2.depth + held = s.depth + (chain.run s).2.1 ∧
      s.LevelsKept limit (chain.run s).2.2 := by
  obtain ⟨taken, holds, course⟩ := h
  refine ⟨?_, course.levelsKept room⟩
  rw [course.depth, holds, Part.levels]
  omega

end

end Rule

namespace Run.State

def turn (limit : Nat) (s : State) : State := ((Rule.topStatement limit).run s).2.advance

/-- A program is read in turns, up to the end. -/
private theorem finishProgram_eq_turns (limit : Nat) (s : State) :
    ∃ turns, (s.finishProgram limit).2 = (turn limit)^[turns] s ∧
      ∀ n < turns, ((turn limit)^[n] s).tokens ≠ [] := by
  suffices all : ∀ found, ∃ turns,
      (Rule.sequenceFrom (Rule.topStatement limit) (fun _ => false) found s).2 = (turn limit)^[turns] s ∧
        ∀ n < turns, ((turn limit)^[n] s).tokens ≠ [] from all []
  intro found
  fun_induction Rule.sequenceFrom (Rule.topStatement limit) (fun _ => false) found s with
  | case1 found s ended => exact ⟨0, rfl, fun n none => absurd none (Nat.not_lt_zero n)⟩
  | case2 found s proper stopped => cases stopped
  | case3 found s proper goes ih =>
    obtain ⟨turns, last, before⟩ := ih
    refine ⟨turns + 1, last, fun n less => ?_⟩
    cases n with
    | zero => exact proper
    | succ n => exact before n (Nat.lt_of_succ_lt_succ less)

/-- However the statements before it ended, a statement of the program starts without an open level. -/
private theorem depth_turns {limit : Nat} {s : State} (start : s.depth = 0) (turns : Nat) :
    ((turn limit)^[turns] s).depth = 0 ∧ s.LevelsKept limit ((turn limit)^[turns] s) := by
  have room : s.depth ≤ limit := by omega
  induction turns with
  | zero => exact ⟨start, .refl room⟩
  | succ turns ih =>
    obtain ⟨before, kept⟩ := ih
    rw [Function.iterate_succ_apply']
    have read := Rule.keepsLevels_topStatement (Rule.followsWithin limit limit).inner kept.le
    exact ⟨read.depth.trans before, (kept.trans read.kept).trans (.advance (kept.trans read.kept).le)⟩

end Run.State

/-- The levels are balanced. Every rule closes those that it opens, with a value or without one; a chain leaves
open what it says it holds; and between the statements of a program no level is open. On the way there are never
more levels open than the limit, and none is closed that is not open. -/
theorem levels_balanced (limit : Nat) :
    (∀ (levels : Nat) {α : Type} (rule : Rule α), Rule.OfLanguage limit levels rule →
      ∀ s : State, s.depth ≤ limit → Rule.KeepsLevels limit rule s) ∧
    (∀ (levels : Nat) (precedence : Precedence) (s : State), s.depth < limit →
      ((Rule.climb limit levels precedence).run s.takeLevel).2.2.depth =
          s.depth + ((Rule.climb limit levels precedence).run s.takeLevel).2.1 ∧
        s.LevelsKept limit ((Rule.climb limit levels precedence).run s.takeLevel).2.2) ∧
    (∀ (levels : Nat) (precedence : Precedence) (left : Expression) (held : Nat) (s : State),
      s.depth ≤ limit →
      ((Rule.links limit levels precedence left held).run s).2.2.depth + held =
          s.depth + ((Rule.links limit levels precedence left held).run s).2.1 ∧
        s.LevelsKept limit ((Rule.links limit levels precedence left held).run s).2.2) ∧
    ∀ (stream : TokenStream) (journal : Journal),
      (∃ turns, ((State.start stream journal).finishProgram limit).2 =
        (State.turn limit)^[turns] (State.start stream journal)) ∧
      ∀ turns, ((State.turn limit)^[turns] (State.start stream journal)).depth = 0 ∧
        (State.start stream journal).LevelsKept limit
          ((State.turn limit)^[turns] (State.start stream journal)) := by
  refine ⟨fun levels α rule language s room => Rule.keepsLevels_of_language language room, ?_, ?_, ?_⟩
  · intro levels precedence s room
    have follows := Rule.followsWithin limit levels
    have climbs : Rule.ChainFollows limit (Rule.climb limit levels precedence) 1 s.takeLevel :=
      Rule.chainFollows_andThen (Rule.Follows.operand follows.inner)
        fun left t => follows.links precedence left 1 t
    obtain ⟨depth, kept⟩ := Rule.levelsKept_of_chainFollows climbs room
    rw [State.depth_takeLevel] at depth
    exact ⟨by omega, (State.LevelsKept.takeLevel room).trans kept⟩
  · intro levels precedence left held s room
    exact Rule.levelsKept_of_chainFollows ((Rule.followsWithin limit levels).links precedence left held s) room
  · intro stream journal
    obtain ⟨turns, last, -⟩ := (State.start stream journal).finishProgram_eq_turns limit
    exact ⟨⟨turns, last⟩, State.depth_turns rfl⟩

/-- A condition that needs one level more than there are. The statement is given up and all of its levels are
closed. So are those of a chain and of links that are read from its first token on. -/
theorem levels_balanced_malformed :
    let s := State.start (.ofText "if (f(-x \x7b y") .empty
    let statement := Rule.statement (Rule.within 3 3)
    let value := Expression.name (Name.ofToken s.current)
    (statement.run s).1 = none ∧ (statement.run s).2.journal.levels = 0 ∧ Rule.KeepsLevels 3 statement s ∧
      s.LevelsKept 3 ((Rule.climb 3 2 .lowest).run s.takeLevel).2.2 ∧
      s.LevelsKept 3 ((Rule.links 3 3 .lowest value 0).run s).2.2 := by
  obtain ⟨rules, chains, links, -⟩ := levels_balanced 3
  refine ⟨by decide +kernel, by decide +kernel, ?_, ?_, ?_⟩
  · exact rules 3 _ .statement _ (by decide)
  · exact (chains 2 .lowest _ (by decide)).2
  · exact (links 3 .lowest _ 0 _ (by decide)).2

end LittleScript

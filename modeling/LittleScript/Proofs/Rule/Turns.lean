import Mathlib.Logic.Relation
import LittleScript.Proofs.Rule.Recursion

/-!
The loops of the parser, turn by turn. Every turn moves past a token proper, whatever the rules for what
stands inside do and wherever they give up, so no loop goes on for ever.
-/

namespace LittleScript.Run

/-- From `s` to `t` some tokens are left behind, at least one of them, and no end mark among them. -/
def State.MovesOn (s t : State) : Prop :=
  ∃ passed, passed ≠ [] ∧ (∀ token ∈ passed, token.kind ≠ .endOfInput) ∧ s.tokens = passed ++ t.tokens

inductive Loop where
  /-- Over the statements of a program. -/
  | program
  /-- Over the statements of a block. -/
  | block
  /-- Over the links of an expression. -/
  | links (precedence : Precedence)
  /-- Over the arguments of a call behind the first one. -/
  | arguments
  /-- Over the parameters of a function behind the first one. -/
  | parameters

/-- One turn of a loop, from where the loop goes on. It may be the last turn, if nothing is built in it. -/
inductive Turn (limit : Nat) (inner : Inner) : Loop → State → State → Prop where
  | program {s} (proper : s.tokens ≠ []) : Turn limit inner .program s (s.turn limit)
  | block {s} (proper : s.tokens ≠ []) (inside : s.current.kind ≠ .rightBrace) :
      Turn limit inner .block s ((Rule.statement inner).run s).2.advance
  | link {precedence link s} (left : Expression) (above : linkAbove? precedence s.peek.kind = some link)
      (room : s.depth < limit) :
      Turn limit inner (.links precedence) s ((Rule.linked inner link left).run s.takeLevel).2
  | argument {s} (comma : s.peek.kind = .comma) :
      Turn limit inner .arguments s ((Rule.nextExpression inner).run s.advance).2
  | parameter {s} (comma : s.peek.kind = .comma) :
      Turn limit inner .parameters s (Rule.parameter.run s.advance).2

inductive Loop.ComesTo (limit : Nat) (inner : Inner) : Loop → State → State → Prop where
  | program {s} : ComesTo limit inner .program s (s.finishProgram limit).2
  | block {s} (found : List Statement) :
      ComesTo limit inner .block s (Rule.sequenceFrom (Rule.statement inner) (· = .rightBrace) found s).2
  | links {s} (precedence : Precedence) (left : Expression) (held : Nat) :
      ComesTo limit inner (.links precedence) s (Rule.linksFrom limit inner precedence left held s).2.2
  | arguments {s} (found : List Expression) :
      ComesTo limit inner .arguments s (Rule.itemsFrom (Rule.nextExpression inner) found s).2
  | parameters {s} (found : List Name) :
      ComesTo limit inner .parameters s (Rule.itemsFrom Rule.parameter found s).2

/-- Tokens that are left behind are proper if all of them are. -/
theorem State.movesOn_of_leads {s t : State} (proper : ∀ token ∈ s.tokens, token.kind ≠ .endOfInput)
    (led : s.Leads t) (fewer : t.tokens.length < s.tokens.length) : s.MovesOn t := by
  obtain ⟨passed, tokens⟩ := led.tokens
  refine ⟨passed, ?_, fun token mem => ?_, tokens.symm⟩
  · rintro rfl
    rw [List.nil_append] at tokens
    rw [tokens] at fewer
    exact Nat.lt_irrefl _ fewer
  · apply proper
    rw [← tokens]
    exact List.mem_append_left _ mem

/-- Whatever is read behind the current token leaves fewer tokens. -/
private theorem State.shorter_of_advance {s t : State} (proper : s.tokens ≠ []) (led : s.advance.Leads t) :
    s.Leads t ∧ t.tokens.length < s.tokens.length :=
  ⟨(State.Leads.advance s).trans led,
    Nat.lt_of_le_of_lt led.length_le (State.length_advance_lt (.refl s) proper)⟩

private theorem State.proper_of_comma {s : State} (comma : s.peek.kind = .comma) : s.tokens ≠ [] := by
  apply State.ne_nil_of_peek
  rw [comma]
  decide

namespace Turn
variable {limit : Nat} {inner : Inner} {loop : Loop} {s t u : State}

/-- Every turn leaves fewer tokens, also one in which nothing is built. -/
theorem shorter (h : Turn limit inner loop s t) : s.Leads t ∧ t.tokens.length < s.tokens.length := by
  cases h with
  | program proper =>
    have led := (Rule.topStatement limit).leads s
    exact ⟨led.trans (.advance _), State.length_advance_lt led proper⟩
  | block proper inside =>
    have led := (Rule.statement inner).leads s
    exact ⟨led.trans (.advance _), State.length_advance_lt led proper⟩
  | @link precedence link s left above room =>
    obtain ⟨led, fewer⟩ := State.shorter_of_advance (s := s.takeLevel) (Rule.proper_of_link above)
      (Rule.leads_linked inner link left s.takeLevel)
    exact ⟨(State.Leads.takeLevel s).trans led, fewer⟩
  | argument comma =>
    exact State.shorter_of_advance (State.proper_of_comma comma) ((Rule.nextExpression inner).leads s.advance)
  | parameter comma =>
    exact State.shorter_of_advance (State.proper_of_comma comma) (Rule.parameter.leads s.advance)

/-- No loop goes on for ever, from any state. -/
theorem wellFounded (limit : Nat) (inner : Inner) (loop : Loop) :
    WellFounded fun t s => Turn limit inner loop s t :=
  Subrelation.wf (fun turn => turn.shorter.2) (measure fun s : State => s.tokens.length).wf

end Turn

section
variable {limit : Nat} {inner : Inner} {loop : Loop} {s u : State}

/-- Statements one after the other are read in turns. -/
private theorem turns_sequenceFrom {item : Rule Statement} {stops : Kind → Bool} {found : List Statement}
    (turn : ∀ s : State, s.tokens ≠ [] → stops s.current.kind = false →
      Turn limit inner loop s (item.run s).2.advance) :
    Relation.ReflTransGen (Turn limit inner loop) s (Rule.sequenceFrom item stops found s).2 := by
  fun_induction Rule.sequenceFrom item stops found s with
  | case1 => exact .refl
  | case2 => exact .refl
  | case3 found s proper goes ih => exact .head (turn s proper (Bool.eq_false_iff.2 goes)) ih

/-- Items with commas between them are read in turns. -/
private theorem turns_itemsFrom {α : Type} {item : Rule α} {found : List α}
    (turn : ∀ s : State, s.peek.kind = .comma → Turn limit inner loop s (item.run s.advance).2) :
    Relation.ReflTransGen (Turn limit inner loop) s (Rule.itemsFrom item found s).2 := by
  fun_induction Rule.itemsFrom item found s with
  | case1 found s comma t failed =>
    have last := turn s comma
    rw [failed] at last
    exact .single last
  | case2 found s comma a t built ih =>
    have first := turn s comma
    rw [built] at first
    exact .head first ih
  | case3 => exact .refl

/-- Links are read in turns, and at the limit one more is refused. -/
private theorem turns_linksFrom {precedence : Precedence} {left : Expression} {held : Nat} :
    ∃ t, Relation.ReflTransGen (Turn limit inner (.links precedence)) s t ∧
      ((Rule.linksFrom limit inner precedence left held s).2.2 = t ∨
        (Rule.linksFrom limit inner precedence left held s).2.2 = Rule.refused limit t) := by
  fun_induction Rule.linksFrom limit inner precedence left held s with
  | case1 left held s unlinked => exact ⟨s, .refl, .inl rfl⟩
  | case2 left held s link above room t failed =>
    have last : Turn limit inner (.links precedence) s _ := .link left above room
    rw [failed] at last
    exact ⟨t, .single last, .inl rfl⟩
  | case3 left held s link above room tree t built ih =>
    have first : Turn limit inner (.links precedence) s _ := .link left above room
    rw [built] at first
    obtain ⟨u, rest, ended⟩ := ih
    exact ⟨u, .head first rest, ended⟩
  | case4 left held s link above full => exact ⟨s, .refl, .inr rfl⟩

/-- What a loop comes to, it comes to by its turns, unless it is refused a level at the end. -/
theorem Loop.ComesTo.turns (h : loop.ComesTo limit inner s u) :
    ∃ t, Relation.ReflTransGen (Turn limit inner loop) s t ∧ (u = t ∨ u = Rule.refused limit t) := by
  cases h with
  | program => exact ⟨_, turns_sequenceFrom fun s proper _ => .program proper, .inl rfl⟩
  | block found =>
    exact ⟨_, turns_sequenceFrom fun s proper goes => .block proper (of_decide_eq_false goes), .inl rfl⟩
  | links precedence left held => exact turns_linksFrom
  | arguments found => exact ⟨_, turns_itemsFrom fun s comma => .argument comma, .inl rfl⟩
  | parameters found => exact ⟨_, turns_itemsFrom fun s comma => .parameter comma, .inl rfl⟩

end
end LittleScript.Run

import LittleScript.Proofs.Rule.Clearing.Language
import LittleScript.Proofs.Rule.Follow.Nested

/-!
The nested rules deal with the characters that they come to, level by level. Where a limit is reported at one
of them, that takes the place of the report about the character.
-/

namespace LittleScript

open Run

namespace Rule
variable {c : Token} {limit levels held : Nat} {precedence : Precedence} {left : Expression} {s t : State}

/-- The limit is reported at the current token, which may be the character. -/
private theorem clears_refused {α : Type} {rule : Rule α} (run : rule.run s = (none, refused limit s)) :
    Clears c rule s.tokens s :=
  Clears.step (.refuseCurrent (.inr ⟨limit, rfl⟩)) run (.refl s) rfl

private theorem clears_refused_expression {rule : Rule Expression}
    (run : rule.run s = (none, refused limit (entered precedence s))) : Clears c rule s.tokens s := by
  have entry := s.quiet_record (.expressionBegun s.current precedence) rfl
  have refusal : Clears c (refuseLevel limit : Rule Expression) s.tokens (entered precedence s) :=
    clears_refused rfl
  exact refusal.step run (.record s _) (State.due_silent entry.silent)

private theorem clears_refused_block {rule : Rule Block} (opens : s.current.kind = .leftBrace)
    (run : rule.run s = (none, refused limit s)) : Clears c rule s.ahead s := by
  intro tracks
  have legal : s.current.kind ≠ .illegal := by rw [opens]; decide
  have refusal := clears_refused (c := c) run tracks
  exact ⟨refusal.due.trans (tracks.due_tokens legal), refusal.legal⟩

/-- What is read of a block leaves the character due as often as it was, and a block ends at another
token. -/
private theorem clears_block (h : (within limit levels).Clears c) (opens : s.current.kind = .leftBrace) :
    Clears c (block limit (levels + 1)) s.ahead s := by
  by_cases room : s.depth < limit
  · intro tracks
    let found := contents limit levels s
    have led : s.Leads s.takeLevel.advance := (State.Leads.takeLevel s).trans (.advance _)
    have opened : s.takeLevel.advance.due c s.ahead = s.due c s.ahead :=
      State.due_silent ((State.diagnostics_advance _).trans (State.diagnostics_takeLevel s))
    have inside : found.2.due c found.2.tokens = s.takeLevel.advance.due c s.ahead :=
      Clears.sequenceFrom (Clears.statement h) (· = .rightBrace) [] _ (tracks.leads led)
    have returned : (found.2.returnLevels 1).due c found.2.tokens = found.2.due c found.2.tokens :=
      State.due_silent (State.diagnostics_returnLevels _ 1)
    obtain ⟨-, ended⟩ := course_sequenceFrom (passes_statement (followsWithin limit levels).inner)
      (· = .rightBrace) [] s.takeLevel.advance
    have closing : Clears c (closed (.braced s.current found.1)) found.2.tokens (found.2.returnLevels 1) :=
      Clears.closed (ended.imp_right of_decide_eq_true)
    have reached : s.Leads (found.2.returnLevels 1) :=
      led.trans ((leads_sequenceFrom _ _ _ _).trans (.returnLevels _ 1))
    exact closing.step (run_block_of_room room) reached (returned.trans (inside.trans opened)) tracks
  · exact clears_refused_block opens (run_block_succ.trans (if_neg room))

private def ChainClears (c : Token) (chain : Chain) (front : List Token) (s : State) : Prop :=
  s.Tracks c → s.Cleared c front (chain.run s).1.isSome (chain.run s).2.2

namespace ChainClears
variable {chain : Chain} {front : List Token}

private theorem step {other : Chain} (h : ChainClears c other front t) (run : chain.run s = other.run t)
    (led : s.Leads t) (silent : s.Silent t) : ChainClears c chain front s := by
  intro tracks
  have rest := h (tracks.leads led)
  rw [run]
  exact ⟨rest.due.trans (State.due_silent silent), rest.legal⟩

private theorem andThen {α : Type} {rule : Rule α} {follow : α → Chain} (first : Clears c rule front s)
    (second : ∀ a t, t.current.kind ≠ .illegal → ChainClears c (follow a) t.ahead t) :
    ChainClears c (.andThen rule held follow) front s := by
  intro tracks
  have led := rule.leads s
  have before := first tracks
  rw [Chain.run_andThen]
  cases run : rule.run s with
  | mk built t =>
    rw [run] at led before
    cases built with
    | none => exact before
    | some a =>
      have rest := second a t (before.legal rfl) (tracks.leads led)
      exact ⟨rest.due.trans before.due, rest.legal⟩

/-- The levels that are closed have nothing to do with it. -/
private theorem close (h : ChainClears c chain front s) : Clears c chain.close front s := by
  intro tracks
  have rest := h tracks
  rw [Chain.run_close]
  exact ⟨(State.due_silent (State.diagnostics_returnLevels _ _)).trans rest.due, rest.legal⟩

end ChainClears

private structure ClearsWithin (c : Token) (limit levels : Nat) : Prop where
  inner : (within limit levels).Clears c
  links : ∀ precedence left held s, s.current.kind ≠ .illegal →
    ChainClears c (links limit levels precedence left held) s.ahead s

private theorem chainClears_unlinked (ends : linkAbove? precedence s.peek.kind = none)
    (legal : s.current.kind ≠ .illegal) :
    ChainClears c (links limit levels precedence left held) s.ahead s := by
  intro _
  rw [run_links_unlinked ends]
  exact ⟨rfl, fun _ => legal⟩

/-- No level is left for one more link, which is reported at the token in front of it. -/
private theorem chainClears_refused {chain : Chain} (run : chain.run s = (none, held, refused limit s))
    (legal : s.current.kind ≠ .illegal) : ChainClears c chain s.ahead s := by
  intro tracks
  rw [run]
  refine ⟨?_, fun built => absurd built Bool.false_ne_true⟩
  exact (tracks.due_reported (.inr ⟨limit, rfl⟩)).trans (tracks.due_tokens legal)

private theorem clearsWithin_zero (c : Token) (limit : Nat) : ClearsWithin c limit 0 where
  inner := ⟨fun _ _ => clears_refused_expression run_expression_zero,
    fun _ opens => clears_refused_block opens run_block_zero⟩
  links precedence left held s legal := by
    cases above : linkAbove? precedence s.peek.kind with
    | none => exact chainClears_unlinked above legal
    | some link => exact chainClears_refused (run_links_zero above) legal

/-- No link is made by the character. -/
private theorem legal_of_link {link : Link} (above : linkAbove? precedence s.peek.kind = some link) :
    s.peek.kind ≠ .illegal := by
  intro illegal
  rw [illegal] at above
  cases above

private theorem clearsWithin_succ (h : ClearsWithin c limit levels) : ClearsWithin c limit (levels + 1) where
  inner := by
    refine ⟨fun precedence s => ?_, fun s opens => clears_block h.inner opens⟩
    by_cases room : s.depth < limit
    · let chain := Chain.andThen (operand (within limit levels)) 1 fun left =>
        links limit levels precedence left 1
      have run : (expression limit (levels + 1) precedence).run s =
          chain.close.run (entered precedence s).takeLevel := run_expression_succ.trans (if_pos room)
      have entry : s.Silent (entered precedence s) := (s.quiet_record _ rfl).silent
      have silent : s.Silent (entered precedence s).takeLevel :=
        (State.diagnostics_takeLevel _).trans entry
      have inside : ChainClears c chain s.tokens (entered precedence s).takeLevel :=
        ChainClears.andThen (Clears.operand h.inner _) fun left t legal => h.links precedence left 1 t legal
      exact inside.close.step run ((State.Leads.record s _).trans (.takeLevel _)) (State.due_silent silent)
    · exact clears_refused_expression (run_expression_succ.trans (if_neg room))
  links precedence left held s legal := by
    cases above : linkAbove? precedence s.peek.kind with
    | none => exact chainClears_unlinked above legal
    | some link =>
      by_cases room : s.depth < limit
      · have next : s.takeLevel.peek.kind ≠ .illegal := legal_of_link above
        have rest : ChainClears c (Chain.andThen (linked (within limit levels) link left) (held + 1)
            fun left => Rule.links limit levels precedence left (held + 1)) s.ahead s.takeLevel :=
          ChainClears.andThen (Clears.linked h.inner link left next) fun left t legal =>
            h.links precedence left (held + 1) t legal
        exact rest.step ((run_links_succ above).trans (if_pos room)) (.takeLevel s)
          (State.diagnostics_takeLevel s)
      · exact chainClears_refused ((run_links_succ above).trans (if_neg room)) legal

private theorem clearsWithin (c : Token) (limit levels : Nat) : ClearsWithin c limit levels := by
  induction levels with
  | zero => exact clearsWithin_zero c limit
  | succ levels ih => exact clearsWithin_succ ih

theorem clears_topStatement (c : Token) (limit : Nat) (s : State) :
    Clears c (topStatement limit) s.tokens s := by
  apply (Clears.statement (clearsWithin c limit limit).inner s).bind
  intro tree t legal
  have kept : Clears c (pure tree) t.ahead (t.record (.kept tree)) := .pure legal
  exact kept.step rfl (.record t _) (State.due_silent (t.quiet_record _ rfl).silent)

end Rule
end LittleScript

import LittleScript.Proofs.Run.Stretch
import LittleScript.Proofs.Syntax.Relocation

/-!
Two runs beside each other. The second one reads what the first one reads, at other places; more may
have been reported before, and more may be left to read behind. Where the first run does not look over
its own end, both see the same.
-/

namespace LittleScript

theorem headKind_map_relocate (f : Location → Location) (tokens : List Token) :
    headKind (tokens.map (Token.relocate f)) = headKind tokens := by
  cases tokens <;> rfl

structure Surroundings where
  /-- Where the places of the text are in the longer one. -/
  move : Location → Location
  /-- What was reported before. -/
  earlier : List Diagnostic
  /-- What is left to read behind the text, unless the text is the end of the longer one. -/
  behind : Option (List Token)

/-- A semicolon is the last token, and no block begins in front of it. -/
structure Sealed (tokens : List Token) : Prop where
  last : tokens.getLast?.map Token.kind = some .semicolon
  plain : ∀ token ∈ tokens, token.kind ≠ .leftBrace

theorem Sealed.ne_nil {tokens : List Token} (h : Sealed tokens) : tokens ≠ [] := by
  rintro rfl
  cases h.last

/-- Tokens stay sealed until their last one is used. -/
theorem Sealed.tail {token : Token} {rest : List Token} (h : Sealed (token :: rest))
    (proper : rest ≠ []) : Sealed rest := by
  refine ⟨?_, fun other mem => h.plain other (List.mem_cons_of_mem token mem)⟩
  rw [← List.getLast?_cons_of_ne_nil proper]
  exact h.last

namespace Run.State

def Inside (s : State) : Prop := s.current.kind ≠ .semicolon

abbrev Anywhere (_ : State) : Prop := True

/-- The second run stands where the first one does. If more is left to read behind, it is sealed off. -/
structure Beside (c : Surroundings) (s t : State) : Prop where
  tokens : t.tokens = s.tokens.map (Token.relocate c.move) ++ c.behind.getD []
  finish : c.behind = none → t.finish = c.move s.finish
  closed : c.behind ≠ none → Sealed s.tokens
  depth : t.depth = s.depth
  diagnostics :
    t.journal.diagnostics = c.earlier ++ s.journal.diagnostics.map (Diagnostic.relocate c.move)

namespace Beside
variable {c : Surroundings} {s t : State}

/-- Both runs stand on the same token. -/
theorem current (h : s.Beside c t) : t.current = s.current.relocate c.move := by
  rw [State.current, State.current, h.tokens]
  cases tokens : s.tokens with
  | cons token rest => rfl
  | nil =>
    by_cases nothing : c.behind = none
    · rw [nothing, h.finish nothing]
      rfl
    · exact absurd tokens (h.closed nothing).ne_nil

theorem current_kind (h : s.Beside c t) : t.current.kind = s.current.kind := by
  rw [h.current, Token.kind_relocate]

/-- Entries without a diagnostic may differ. -/
theorem record {event event' : Event} (h : s.Beside c t) (unheard : event.diagnostic? = none)
    (unheard' : event'.diagnostic? = none) : (s.record event).Beside c (t.record event') where
  tokens := h.tokens
  finish := h.finish
  closed := h.closed
  depth := h.depth
  diagnostics := by
    rw [(t.quiet_record event' unheard').silent, (s.quiet_record event unheard).silent, h.diagnostics]

/-- Both runs report the same. -/
theorem diagnosed (h : s.Beside c t) (d : Diagnostic) :
    (s.record (.diagnosed d)).Beside c (t.record (.diagnosed (d.relocate c.move))) where
  tokens := h.tokens
  finish := h.finish
  closed := h.closed
  depth := h.depth
  diagnostics := by
    rw [diagnostics_diagnosed, diagnostics_diagnosed, h.diagnostics, List.map_append, List.append_assoc]
    rfl

theorem takeLevel (h : s.Beside c t) : s.takeLevel.Beside c t.takeLevel where
  tokens := h.tokens
  finish := h.finish
  closed := h.closed
  depth := congrArg (· + 1) h.depth
  diagnostics := by rw [diagnostics_takeLevel, diagnostics_takeLevel, h.diagnostics]

theorem returnLevels (h : s.Beside c t) (count : Nat) :
    (s.returnLevels count).Beside c (t.returnLevels count) where
  tokens := h.tokens
  finish := h.finish
  closed := h.closed
  depth := congrArg (· - count) h.depth
  diagnostics := by rw [diagnostics_returnLevels, diagnostics_returnLevels, h.diagnostics]

/-- Both runs move on, unless that leaves nothing of the first text in front of what is behind it. -/
theorem advance_of_closed (h : s.Beside c t) (closed : c.behind ≠ none → Sealed s.advance.tokens) :
    s.advance.Beside c t.advance where
  tokens := by
    rw [tokens_advance, tokens_advance, h.tokens]
    cases tokens : s.tokens with
    | cons token rest => rfl
    | nil =>
      by_cases nothing : c.behind = none
      · rw [nothing]
        rfl
      · exact absurd tokens (h.closed nothing).ne_nil
  finish := h.finish
  closed := closed
  depth := h.depth
  diagnostics := by rw [diagnostics_advance, diagnostics_advance, h.diagnostics]

theorem advance (h : s.Beside c t) (inside : s.Inside) : s.advance.Beside c t.advance := by
  apply h.advance_of_closed
  intro more
  have closed := h.closed more
  rw [Inside] at inside
  cases tokens : s.tokens with
  | nil => exact absurd tokens closed.ne_nil
  | cons token rest =>
    rw [tokens] at closed
    rw [tokens_advance, tokens]
    refine closed.tail ?_
    rintro rfl
    rw [current_of_tokens tokens] at inside
    exact inside (Option.some.inj closed.last)

/-- Where the first run does not stand on a semicolon, both see the same token ahead. -/
theorem peek (h : s.Beside c t) (inside : s.Inside) : t.peek = s.peek.relocate c.move :=
  (h.advance inside).current

theorem peek_kind (h : s.Beside c t) (inside : s.Inside) : t.peek.kind = s.peek.kind := by
  rw [h.peek inside, Token.kind_relocate]

/-- Where a block begins, nothing more is behind. -/
theorem open_of_brace (h : s.Beside c t) (brace : s.current.kind = .leftBrace) : c.behind = none := by
  apply Decidable.byContradiction
  intro more
  have closed := h.closed more
  refine closed.plain s.current ?_ brace
  rw [tokens_of_proper closed.ne_nil]
  exact List.mem_cons_self

end Beside

theorem inside_of_kind {s : State} {kind : Kind} (h : s.current.kind = kind) (other : kind ≠ .semicolon) :
    s.Inside := by
  rw [Inside, h]
  exact other

end Run.State
end LittleScript

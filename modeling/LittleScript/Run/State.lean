import LittleScript.Run.Journal
import LittleScript.Token.Lexer

/-!
Where a run of the parser stands: the tokens from the current one on, the levels that are open, and
the journal. A run leads from one state to another without giving tokens back or losing entries.
-/

namespace LittleScript.Run

/-- The first of the `tokens` is the current one. Behind the last stands the end mark, for ever. -/
structure State where
  tokens : List Token
  finish : Location
  depth : Nat
  journal : Journal

namespace State

def start (stream : TokenStream) (journal : Journal) : State :=
  ⟨stream.tokens, stream.finish, 0, journal⟩

/-- The token that a rule starts on, and at its end the last one that it used. -/
def current (s : State) : Token := s.tokens.head?.getD (Token.endMark s.finish)

def peek (s : State) : Token := s.tokens.tail.head?.getD (Token.endMark s.finish)

def record (s : State) (event : Event) : State := { s with journal := s.journal.record event }

/-- Moves to the next token. At the end mark it stays there. -/
def advance (s : State) : State :=
  { s with tokens := s.tokens.tail, journal := s.journal.record (.moved s.peek) }

def takeLevel (s : State) : State :=
  { s with depth := s.depth + 1, journal := s.journal.record .levelTaken }

def returnLevels (s : State) (count : Nat) : State :=
  { s with depth := s.depth - count, journal := s.journal.record (.levelsReturned count) }

@[simp] theorem current_advance (s : State) : s.advance.current = s.peek := rfl

@[simp] theorem tokens_advance (s : State) : s.advance.tokens = s.tokens.tail := rfl

@[simp] theorem depth_advance (s : State) : s.advance.depth = s.depth := rfl

@[simp] theorem depth_record (s : State) (event : Event) : (s.record event).depth = s.depth := rfl

structure Leads (s t : State) : Prop where
  tokens : t.tokens <:+ s.tokens
  finish : t.finish = s.finish
  journal : s.journal.latestFirst <:+ t.journal.latestFirst

namespace Leads

theorem refl (s : State) : s.Leads s := ⟨List.suffix_rfl, rfl, List.suffix_rfl⟩

theorem trans {s t u : State} (a : s.Leads t) (b : t.Leads u) : s.Leads u :=
  ⟨b.tokens.trans a.tokens, b.finish.trans a.finish, a.journal.trans b.journal⟩

theorem record (s : State) (event : Event) : s.Leads (s.record event) :=
  ⟨List.suffix_rfl, rfl, List.suffix_cons _ _⟩

theorem advance (s : State) : s.Leads s.advance :=
  ⟨List.tail_suffix _, rfl, List.suffix_cons _ _⟩

theorem takeLevel (s : State) : s.Leads s.takeLevel :=
  ⟨List.suffix_rfl, rfl, List.suffix_cons _ _⟩

theorem returnLevels (s : State) (count : Nat) : s.Leads (s.returnLevels count) :=
  ⟨List.suffix_rfl, rfl, List.suffix_cons _ _⟩

/-- A run never has more tokens left than before. -/
theorem length_le {s t : State} (h : s.Leads t) : t.tokens.length ≤ s.tokens.length :=
  h.tokens.length_le

end Leads

/-- Moving on from a token proper uses it up. -/
theorem length_advance_lt {s t : State} (h : s.Leads t) (proper : s.tokens ≠ []) :
    t.advance.tokens.length < s.tokens.length := by
  have bound := h.length_le
  have positive := List.length_pos_iff.2 proper
  rw [tokens_advance, List.length_tail]
  omega

/-- Whatever is seen ahead, apart from the end mark, is a token that is left. -/
theorem ne_nil_of_peek {s : State} (h : s.peek.kind ≠ .endOfInput) : s.tokens ≠ [] := by
  intro empty
  rw [peek, empty] at h
  exact h rfl

end State
end LittleScript.Run

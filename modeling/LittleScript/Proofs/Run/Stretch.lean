import LittleScript.Rule.Basic

/-!
Stretches of a run, from one state to a later one: what they add to the diagnostics, and what stays
as it was when they add nothing.
-/

namespace LittleScript

/-- The kind that is seen at the start of some tokens. Behind the last stands the end mark. -/
def headKind (tokens : List Token) : Kind := (tokens.head?.map Token.kind).getD .endOfInput

@[simp] theorem headKind_cons (token : Token) (rest : List Token) :
    headKind (token :: rest) = token.kind := rfl

/-- Tokens in front hide those behind them. -/
theorem headKind_append {front : List Token} (proper : front ≠ []) (back : List Token) :
    headKind (front ++ back) = headKind front := by
  cases front with
  | nil => exact absurd rfl proper
  | cons token rest => rfl

end LittleScript

namespace LittleScript.Run.State

abbrev begun (s : State) : State := s.record (.statementBegun s.current s.peek)

def ahead (s : State) : List Token := s.tokens.tail

def Silent (s t : State) : Prop := t.journal.diagnostics = s.journal.diagnostics

def TooDeep (limit : Nat) (s t : State) : Prop :=
  ∃ added, t.journal.diagnostics = s.journal.diagnostics ++ added ∧
    ∃ d ∈ added, d.cause = .nestingTooDeep limit

structure Quiet (s t : State) : Prop where
  finish : t.finish = s.finish
  depth : t.depth = s.depth
  silent : s.Silent t

theorem Quiet.refl (s : State) : s.Quiet s := ⟨rfl, rfl, rfl⟩

theorem Quiet.trans {s t u : State} (a : s.Quiet t) (b : t.Quiet u) : s.Quiet u :=
  ⟨b.finish.trans a.finish, b.depth.trans a.depth, Eq.trans b.silent a.silent⟩

/-- Entries that hold no diagnostic are not heard. -/
theorem quiet_record (s : State) (event : Event) (h : event.diagnostic? = none) :
    s.Quiet (s.record event) := by
  refine ⟨rfl, rfl, ?_⟩
  simp [Silent, record, Journal.diagnostics_record, h]

theorem quiet_advance (s : State) : s.Quiet s.advance :=
  ⟨rfl, rfl, by simp [Silent, State.advance, Journal.diagnostics_record, Event.diagnostic?]⟩

@[simp] theorem diagnostics_advance (s : State) :
    s.advance.journal.diagnostics = s.journal.diagnostics := s.quiet_advance.silent

@[simp] theorem depth_takeLevel (s : State) : s.takeLevel.depth = s.depth + 1 := rfl

@[simp] theorem depth_returnLevels (s : State) (count : Nat) :
    (s.returnLevels count).depth = s.depth - count := rfl

@[simp] theorem diagnostics_takeLevel (s : State) :
    s.takeLevel.journal.diagnostics = s.journal.diagnostics := by
  simp [State.takeLevel, Journal.diagnostics_record, Event.diagnostic?]

@[simp] theorem diagnostics_returnLevels (s : State) (count : Nat) :
    (s.returnLevels count).journal.diagnostics = s.journal.diagnostics := by
  simp [State.returnLevels, Journal.diagnostics_record, Event.diagnostic?]

@[simp] theorem diagnostics_diagnosed (s : State) (d : Diagnostic) :
    (s.record (.diagnosed d)).journal.diagnostics = s.journal.diagnostics ++ [d] := by
  simp [State.record, Journal.diagnostics_record, Event.diagnostic?]

/-- A later state has all diagnostics of the earlier one, in front of its own. -/
private theorem Leads.diagnostics {s t : State} (h : s.Leads t) :
    ∃ added, t.journal.diagnostics = s.journal.diagnostics ++ added := by
  obtain ⟨latest, eq⟩ := h.journal
  refine ⟨latest.reverse.filterMap Event.diagnostic?, ?_⟩
  simp only [Journal.diagnostics, Journal.events, ← eq, List.reverse_append, List.filterMap_append]

/-- A silent stretch is silent in each of its parts. -/
theorem Silent.split {s t u : State} (a : s.Leads t) (b : t.Leads u) (h : s.Silent u) :
    s.Silent t ∧ t.Silent u := by
  obtain ⟨first, eq⟩ := a.diagnostics
  obtain ⟨second, eq'⟩ := b.diagnostics
  have whole : s.journal.diagnostics ++ (first ++ second) = s.journal.diagnostics := by
    rw [← List.append_assoc, ← eq, ← eq']
    exact h
  have none_added := List.append_right_eq_self.1 whole
  obtain ⟨rfl, rfl⟩ := List.append_eq_nil_iff.1 none_added
  exact ⟨by simpa [Silent] using eq, by simpa [Silent] using eq'⟩

/-- What a part of a stretch reports, the whole reports. -/
theorem TooDeep.extend {limit : Nat} {s t u v : State} (a : s.Leads t) (h : t.TooDeep limit u)
    (b : u.Leads v) : s.TooDeep limit v := by
  obtain ⟨first, eq⟩ := a.diagnostics
  obtain ⟨added, eq', d, mem, cause⟩ := h
  obtain ⟨last, eq''⟩ := b.diagnostics
  refine ⟨first ++ added ++ last, ?_, d, ?_, cause⟩
  · rw [eq'', eq', eq]
    simp only [List.append_assoc]
  · simp [mem]

/-- A limit that no diagnostic names was not reported. -/
theorem not_tooDeep {limit : Nat} (s : State) {t : State}
    (h : ∀ d ∈ t.journal.diagnostics, d.cause ≠ .nestingTooDeep limit) : ¬ s.TooDeep limit t := by
  rintro ⟨added, eq, d, mem, cause⟩
  exact h d (by rw [eq]; exact List.mem_append_right _ mem) cause

theorem tooDeep_refused (limit : Nat) (s : State) :
    s.TooDeep limit (s.record (.diagnosed ⟨.nestingTooDeep limit, s.current.location⟩)) :=
  ⟨[_], diagnostics_diagnosed _ _, _, List.mem_singleton_self _, rfl⟩

/-- Reporting something is not silent. -/
theorem not_silent_diagnosed (s : State) (d : Diagnostic) :
    ¬ s.Silent (s.record (.diagnosed d)) := by
  intro silent
  rw [Silent, diagnostics_diagnosed] at silent
  exact List.cons_ne_nil _ _ (List.append_right_eq_self.1 silent)

theorem current_of_tokens {s : State} {token : Token} {rest : List Token}
    (h : s.tokens = token :: rest) : s.current = token := by
  simp [current, h]

theorem ahead_of_tokens {s : State} {token : Token} {rest : List Token}
    (h : s.tokens = token :: rest) : s.ahead = rest := by
  rw [ahead, h, List.tail_cons]

theorem peek_of_ahead {s : State} {token : Token} {rest : List Token}
    (h : s.ahead = token :: rest) : s.peek = token := by
  rw [ahead] at h
  simp [peek, h]

theorem current_kind (s : State) : s.current.kind = headKind s.tokens := by
  rw [current, headKind]
  cases s.tokens <;> rfl

theorem peek_kind (s : State) : s.peek.kind = headKind s.ahead := by
  rw [peek, ahead, headKind]
  cases s.tokens.tail <;> rfl

/-- The end mark is seen ahead when nothing is left. -/
theorem peek_of_ahead_nil {s : State} (h : s.ahead = []) : s.peek = Token.endMark s.finish := by
  rw [ahead] at h
  simp [peek, h]

/-- Whatever is seen ahead, apart from the end mark, is the first token that is left. -/
theorem ahead_of_peek {s : State} (h : s.peek.kind ≠ .endOfInput) :
    s.ahead = s.peek :: s.advance.ahead := by
  cases ahead : s.tokens.tail with
  | nil => exact absurd (by rw [peek_of_ahead_nil ahead]; rfl) h
  | cons token rest => simp [State.ahead, peek, ahead]

/-- The current token is the first one, if any are left. -/
theorem tokens_of_proper {s : State} (proper : s.tokens ≠ []) : s.tokens = s.current :: s.ahead := by
  cases tokens : s.tokens with
  | nil => exact absurd tokens proper
  | cons token rest => simp [ahead, current, tokens]

/-- A current token that is not the end mark is the first token. -/
theorem tokens_of_current {s : State} (h : s.current.kind ≠ .endOfInput) :
    s.tokens = s.current :: s.ahead := by
  apply tokens_of_proper
  intro nothing
  rw [current, nothing] at h
  exact h rfl

@[simp] theorem ahead_advance_tokens (s : State) : s.advance.tokens = s.ahead := rfl

theorem ahead_advance {s : State} {token : Token} {rest : List Token} (h : s.ahead = token :: rest) :
    s.advance.ahead = rest := by
  rw [ahead, ahead_advance_tokens, h, List.tail_cons]

end LittleScript.Run.State

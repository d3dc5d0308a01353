import LittleScript.Proofs.Rule.Follow.Nested
import LittleScript.Proofs.Run.Ledger
import LittleScript.Proofs.Token.Order

/-!
An activation of the statement rule has one diagnostic of its own if a statement was lost in it, and none
otherwise. Activations start on different tokens.
-/

namespace LittleScript

/-- The second ledger has more activations that have ended. They are fair, and as many others as `depth` or
more were running around each of them. -/
structure Ledger.Adds (depth : Nat) (before after : Ledger) : Prop where
  outside : after.outside = before.outside
  ended : ∃ added, after.ended = added ++ before.ended ∧ ∀ a ∈ added, a.Fair ∧ depth ≤ a.depth

theorem Ledger.Adds.refl (depth : Nat) (ledger : Ledger) : ledger.Adds depth ledger :=
  ⟨rfl, [], rfl, fun _ none => absurd none List.not_mem_nil⟩

private theorem Ledger.Adds.trans {depth : Nat} {a b c : Ledger} (first : a.Adds depth b) (second : b.Adds depth c) :
    a.Adds depth c := by
  obtain ⟨front, frontEnded, frontFair⟩ := first.ended
  obtain ⟨back, backEnded, backFair⟩ := second.ended
  refine ⟨second.outside.trans first.outside, back ++ front, ?_, List.forall_mem_append.2 ⟨backFair, frontFair⟩⟩
  rw [backEnded, frontEnded, List.append_assoc]

/-- What a part of a run does to the activations. While something is read, the diagnostics of the
running activation become one more if it is refused. Statements leave the running activations as they
were. -/
def Ledger.Accounts (before after : Ledger) : Run.Part → Prop
  | .reading _ refused => ∀ token own outer, before.running = (token, own) :: outer →
      before.Adds before.running.length after ∧
        ∃ added, after.running = (token, own ++ added) :: outer ∧ added.length = refused.toNat
  | .statements => before.Adds before.running.length after ∧ after.running = before.running

section
variable {before after : Ledger} {held : Nat} {refused : Bool} {token : Token} {own : List Diagnostic}
  {outer : List (Token × List Diagnostic)}

private theorem Ledger.Accounts.report (h : before.Accounts after (.reading held false)) (d : Diagnostic) :
    before.Accounts (after.enter (.diagnosed d)) (.reading held true) := by
  intro token own outer running
  obtain ⟨adds, added, running', none⟩ := h token own outer running
  simp only [enter, running']
  refine ⟨⟨adds.outside, adds.ended⟩, added ++ [d], ?_, ?_⟩
  · rw [List.append_assoc]
  · rw [List.length_append, none]
    rfl

private theorem Ledger.Accounts.inside {middle : Ledger} (h : before.Accounts middle (.reading held refused))
    (statements : middle.Accounts after .statements) : before.Accounts after (.reading held refused) := by
  intro token own outer running
  obtain ⟨adds, added, running', length⟩ := h token own outer running
  obtain ⟨more, same⟩ := statements
  have level : middle.running.length = before.running.length := by
    rw [running', running, List.length_cons, List.length_cons]
  rw [level] at more
  exact ⟨adds.trans more, added, same.trans running', length⟩

theorem Ledger.enter_statementEnded (built : Bool) (h : before.running = (token, own) :: outer) :
    before.enter (.statementEnded token built) =
      { before with running := outer, ended := ⟨token, built, own, outer.length⟩ :: before.ended } := by
  simp only [enter, h]

/-- One more activation has ended, behind all those that were running inside it. -/
private theorem Ledger.Adds.statement {peek : Token} {built : Bool}
    (inside : (before.enter (.statementBegun token peek)).Adds (before.running.length + 1) after)
    (running : after.running = (token, own) :: before.running)
    (fair : Activation.Fair ⟨token, built, own, before.running.length⟩) :
    before.Adds before.running.length (after.enter (.statementEnded token built)) := by
  obtain ⟨added, ended, deeper⟩ := inside.ended
  rw [enter_statementEnded _ running]
  refine ⟨inside.outside, ⟨token, built, own, before.running.length⟩ :: added, ?_, ?_⟩
  · rw [ended]
    rfl
  · refine List.forall_mem_cons.2 ⟨⟨fair, Nat.le_refl _⟩, fun a mem => ?_⟩
    exact ⟨(deeper a mem).1, Nat.le_of_succ_le (deeper a mem).2⟩

/-- An activation of which only the running part is left to account for. -/
private theorem Ledger.Accounts.ended {peek : Token} (answered : token.kind ∈ Kind.answered)
    (h : (before.enter (.statementBegun token peek)).Accounts after (.reading 0 refused)) :
    before.Accounts (after.enter (.statementEnded token !refused)) .statements := by
  obtain ⟨adds, added, running, length⟩ := h token [] before.running rfl
  refine ⟨adds.statement running ?_, ?_⟩
  · have lost : Activation.lost ⟨token, !refused, [] ++ added, before.running.length⟩ = refused := by
      rw [Activation.lost, Bool.not_not, decide_eq_true answered, Bool.true_and]
    rw [Activation.Fair, lost, List.nil_append, length]
    cases refused <;> rfl
  · rw [enter_statementEnded _ running]

/-- Nothing is asked of a token that is passed over. -/
private theorem Ledger.accounts_skipped (peek : Token) (other : token.kind ∉ Kind.answered) :
    before.Accounts ((before.enter (.statementBegun token peek)).enter (.statementEnded token false))
      .statements := by
  refine ⟨(Adds.refl _ _).statement rfl ?_, rfl⟩
  have kept : Activation.lost ⟨token, false, [], before.running.length⟩ = false := by
    rw [Activation.lost, decide_eq_false other, Bool.false_and]
  rw [Activation.Fair, kept]
  rfl

private theorem Ledger.Accounts.follow {middle : Ledger} (first : before.Accounts middle .statements)
    (second : middle.Accounts after .statements) : before.Accounts after .statements := by
  obtain ⟨adds, running⟩ := first
  obtain ⟨more, running'⟩ := second
  rw [running] at more
  exact ⟨adds.trans more, running'.trans running⟩

end

namespace Run

abbrev State.ledger (s : State) : Ledger := s.journal.ledger

theorem State.ledger_record (s : State) (event : Event) :
    (s.record event).ledger = s.ledger.enter event := Journal.ledger_record _ _

theorem State.ledger_advance (s : State) : s.advance.ledger = s.ledger := Journal.ledger_record _ _

theorem State.ledger_takeLevel (s : State) : s.takeLevel.ledger = s.ledger := Journal.ledger_record _ _

theorem State.ledger_returnLevels (s : State) (count : Nat) : (s.returnLevels count).ledger = s.ledger :=
  Journal.ledger_record _ _

private theorem State.Ends.ledger {u v : State} {token : Token} {built : Bool} (h : u.Ends token built v) :
    v.ledger = u.ledger.enter (.statementEnded token built) := by
  obtain rfl | ⟨tree, -, rfl⟩ := h
  · exact State.ledger_record _ _
  · exact (State.ledger_record _ _).trans (State.ledger_record _ _)

private theorem State.begun_record (s : State) {event : Event} (h : event.begun? = none) :
    (s.record event).journal.begun = s.journal.begun := by
  rw [State.record, Journal.begun_record, h]
  exact List.append_nil _

private theorem State.begun_advance (s : State) : s.advance.journal.begun = s.journal.begun :=
  @State.begun_record s (.moved s.peek) rfl

private theorem State.begun_takeLevel (s : State) : s.takeLevel.journal.begun = s.journal.begun :=
  @State.begun_record s .levelTaken rfl

private theorem State.begun_returnLevels (s : State) (count : Nat) :
    (s.returnLevels count).journal.begun = s.journal.begun :=
  @State.begun_record s (.levelsReturned count) rfl

private theorem State.Ends.begun {u v : State} {token : Token} {built : Bool} (h : u.Ends token built v) :
    v.journal.begun = u.journal.begun := by
  obtain rfl | ⟨tree, -, rfl⟩ := h
  · exact State.begun_record _ rfl
  · exact (State.begun_record _ rfl).trans (State.begun_record _ rfl)

def State.Starts (s t : State) : Part → List Token → Prop
  | .reading _ _, started => (started ++ t.ahead).Sublist s.ahead
  | .statements, started => (started ++ t.tokens).Sublist s.tokens

/-- The statements of a block start behind its brace. -/
private theorem State.Starts.block {s t u : State} {held : Nat} {refused ended : Bool} {front back : List Token}
    (before : s.Starts t (.reading held refused) front) (inside : t.advance.Starts u .statements back) :
    s.Starts u (.reading held ended) (front ++ back) := by
  have behind : (back ++ u.ahead).Sublist t.ahead :=
    ((List.Sublist.refl back).append (List.tail_sublist _)).trans inside
  change (front ++ back ++ u.ahead).Sublist s.ahead
  rw [List.append_assoc]
  exact ((List.Sublist.refl front).append behind).trans before

/-- A statement starts on the current token, and everything inside it behind that. -/
private theorem State.Starts.statement {s t u : State} {front back : List Token}
    (before : s.Starts t .statements front) (proper : t.tokens ≠ [])
    (inside : (back ++ u.ahead).Sublist t.ahead) :
    s.Starts u.advance .statements (front ++ t.current :: back) := by
  have behind : (t.current :: back ++ u.ahead).Sublist t.tokens := by
    rw [State.tokens_of_proper proper]
    exact List.Sublist.cons_cons _ inside
  change (front ++ t.current :: back ++ u.ahead).Sublist s.tokens
  rw [List.append_assoc]
  exact ((List.Sublist.refl front).append behind).trans before

namespace Course
variable {limit : Nat} {s t : State} {part : Part}

/-- Every activation that ends in a course is fair. -/
theorem accounts (h : Course limit s part t) : s.ledger.Accounts t.ledger part := by
  induction h with
  | start => exact fun token own outer running => ⟨.refl _ _, [], by rw [running, List.append_nil], rfl⟩
  | advance _ ih =>
    rw [State.ledger_advance]
    exact ih
  | expression _ precedence ih =>
    rw [State.ledger_record]
    exact ih
  | takeLevel _ _ ih =>
    rw [State.ledger_takeLevel]
    exact ih
  | returnLevels count _ ih =>
    rw [State.ledger_returnLevels]
    exact ih
  | report _ _ ih =>
    rw [State.ledger_record]
    exact ih.report _
  | block _ _ _ _ _ before inside =>
    rw [State.ledger_advance, State.ledger_takeLevel] at inside
    rw [State.ledger_returnLevels]
    exact before.inside inside
  | unterminated _ _ _ _ _ before inside =>
    rw [State.ledger_advance, State.ledger_takeLevel] at inside
    rw [State.ledger_record, State.ledger_returnLevels]
    exact (before.inside inside).report _
  | none => exact ⟨.refl _ _, rfl⟩
  | statement _ _ answered _ ended before inside =>
    rw [State.ledger_record] at inside
    rw [State.ledger_advance, ended.ledger]
    exact before.follow (inside.ended answered)
  | skipped _ _ other ended before =>
    rw [State.ledger_advance, ended.ledger, State.ledger_record]
    exact before.follow (Ledger.accounts_skipped _ other)

/-- The tokens on which activations start in a course are tokens that were left before it and are not
left behind it. While something is read, its first token is not used again. -/
theorem begun (h : Course limit s part t) :
    ∃ started, t.journal.begun = s.journal.begun ++ started ∧ s.Starts t part started := by
  induction h with
  | start => exact ⟨[], (List.append_nil _).symm, .refl _⟩
  | advance _ ih =>
    obtain ⟨started, begun, used⟩ := ih
    refine ⟨started, (State.begun_advance _).trans begun, .trans ?_ used⟩
    exact (List.Sublist.refl started).append (List.tail_sublist _)
  | expression _ _ ih =>
    obtain ⟨started, begun, used⟩ := ih
    exact ⟨started, (State.begun_record _ rfl).trans begun, used⟩
  | takeLevel _ _ ih =>
    obtain ⟨started, begun, used⟩ := ih
    exact ⟨started, (State.begun_takeLevel _).trans begun, used⟩
  | returnLevels count _ ih =>
    obtain ⟨started, begun, used⟩ := ih
    exact ⟨started, (State.begun_returnLevels _ count).trans begun, used⟩
  | report _ _ ih =>
    obtain ⟨started, begun, used⟩ := ih
    exact ⟨started, (State.begun_record _ rfl).trans begun, used⟩
  | block _ _ _ _ _ before inside =>
    obtain ⟨front, begun, used⟩ := before
    obtain ⟨back, begun', used'⟩ := inside
    refine ⟨front ++ back, ?_, used.block used'⟩
    rw [State.begun_returnLevels, begun', State.begun_advance, State.begun_takeLevel, begun,
      List.append_assoc]
  | unterminated _ _ _ _ _ before inside =>
    obtain ⟨front, begun, used⟩ := before
    obtain ⟨back, begun', used'⟩ := inside
    refine ⟨front ++ back, ?_, used.block used'⟩
    rw [State.begun_record _ rfl, State.begun_returnLevels, begun', State.begun_advance,
      State.begun_takeLevel, begun, List.append_assoc]
  | none => exact ⟨[], (List.append_nil _).symm, .refl _⟩
  | @statement s t u v _ _ proper _ _ ended before inside =>
    obtain ⟨front, begun, used⟩ := before
    obtain ⟨back, begun', used'⟩ := inside
    have start : t.begun.journal.begun = t.journal.begun ++ [t.current] := Journal.begun_record _ _
    refine ⟨front ++ t.current :: back, ?_, ?_⟩
    · rw [State.begun_advance, ended.begun, begun', start, begun, List.append_assoc, List.append_assoc]
      rfl
    · rw [State.Starts, State.ahead_advance_tokens, State.ahead, ended.tokens]
      exact used.statement proper used'
  | @skipped s t v _ proper _ ended before =>
    obtain ⟨front, begun, used⟩ := before
    have start : t.begun.journal.begun = t.journal.begun ++ [t.current] := Journal.begun_record _ _
    refine ⟨front ++ [t.current], ?_, ?_⟩
    · rw [State.begun_advance, ended.begun, start, begun, List.append_assoc]
    · rw [State.Starts, State.ahead_advance_tokens, State.ahead, ended.tokens]
      exact used.statement proper (.refl _)

end Course
end Run

end LittleScript

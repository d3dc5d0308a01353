import LittleScript.Proofs.Run.Activation

/-!
Attempts to read a statement. The loops over statements try it on every token that they stand on. Each attempt is an
activation of its own, and the statements that are kept are those that were built. So no statement is lost without a
diagnostic, and none is reported twice.
-/

namespace LittleScript

open Run

namespace Rule

/-- The tokens on which a sequence tries to read an item, with the items that it reads there. -/
def attempts {α : Type} (item : Rule α) (stops : Kind → Bool) (s : State) : List (Token × Option α) :=
  if _ : s.tokens = [] then []
  else if stops s.current.kind then []
  else (s.current, (item.run s).1) :: attempts item stops (item.run s).2.advance
termination_by s.tokens.length
decreasing_by exact State.length_advance_lt (item.leads s) ‹_›

section
variable {α : Type} {item : Rule α} {stops : Kind → Bool} {s : State}

private theorem attempts_step (proper : s.tokens ≠ []) (goes : ¬ stops s.current.kind = true) :
    attempts item stops s = (s.current, (item.run s).1) :: attempts item stops (item.run s).2.advance := by
  rw [attempts, dif_neg proper, if_neg goes]

private theorem attempts_stops (h : s.tokens = [] ∨ stops s.current.kind = true) : attempts item stops s = [] := by
  rw [attempts]
  by_cases ended : s.tokens = []
  · rw [dif_pos ended]
  · rw [dif_neg ended, if_pos (h.resolve_left ended)]

/-- A sequence holds the items that it has read. -/
private theorem sequenceFrom_attempts (item : Rule α) (stops : Kind → Bool) (found : List α) (s : State) :
    (sequenceFrom item stops found s).1 = found.reverse ++ (attempts item stops s).filterMap Prod.snd := by
  fun_induction sequenceFrom item stops found s with
  | case1 found s ended => rw [attempts_stops (.inl ended), List.filterMap_nil, List.append_nil]
  | case2 found s proper stopped => rw [attempts_stops (.inr stopped), List.filterMap_nil, List.append_nil]
  | case3 found s proper goes ih =>
    rw [ih, attempts_step proper goes, List.reverse_append, List.append_assoc]
    cases (item.run s).1 with
    | none => rfl
    | some a => rfl

end

end Rule

def attempted (attempt : Token × Option Statement) : Token × Bool := (attempt.1, attempt.2.isSome)

/-- Between the ledgers an activation has ended on each of the tokens, one after the other, with a statement or
without. All others that have ended were running inside of these. -/
def Ledger.Activates (before after : Ledger) (attempts : List (Token × Bool)) : Prop :=
  ∃ added, after.ended.reverse = before.ended.reverse ++ added ∧
    (∀ a ∈ added, before.running.length ≤ a.depth) ∧
    (added.filter (·.depth = before.running.length)).map Activation.outcome = attempts

namespace Ledger
variable {before middle after : Ledger} {front back : List (Token × Bool)}

private theorem Activates.nil (ledger : Ledger) : ledger.Activates ledger [] :=
  ⟨[], (List.append_nil _).symm, fun _ none => absurd none List.not_mem_nil, rfl⟩

private theorem Activates.trans (first : before.Activates middle front) (running : middle.running = before.running)
    (second : middle.Activates after back) : before.Activates after (front ++ back) := by
  obtain ⟨a, endedA, insideA, rfl⟩ := first
  obtain ⟨b, endedB, insideB, rfl⟩ := second
  rw [running] at insideB ⊢
  refine ⟨a ++ b, ?_, List.forall_mem_append.2 ⟨insideA, insideB⟩, ?_⟩
  · rw [endedB, endedA, List.append_assoc]
  · rw [List.filter_append, List.map_append]

/-- Only the ends of activations count. -/
private theorem Activates.of_ended {last : Ledger} (h : before.Activates after front)
    (same : last.ended = after.ended) :
    before.Activates last front := by
  rw [Activates, same]
  exact h

private theorem ended_diagnosed (ledger : Ledger) (d : Diagnostic) :
    (ledger.enter (.diagnosed d)).ended = ledger.ended := by
  obtain ⟨running, ended, outside⟩ := ledger
  cases running <;> rfl

/-- An activation around everything that has ended meanwhile. -/
private theorem activates_statement {token peek : Token} {own : List Diagnostic} (built : Bool)
    (inside : (before.enter (.statementBegun token peek)).Adds (before.running.length + 1) after)
    (running : after.running = (token, own) :: before.running) :
    before.Activates (after.enter (.statementEnded token built)) [(token, built)] := by
  obtain ⟨added, ended, deeper⟩ := inside.ended
  have others : added.reverse.filter (·.depth = before.running.length) = [] := by
    refine List.filter_eq_nil_iff.2 fun a mem here => ?_
    have depth := (deeper a (List.mem_reverse.1 mem)).2
    have same := of_decide_eq_true here
    omega
  rw [enter_statementEnded _ running]
  refine ⟨added.reverse ++ [⟨token, built, own, before.running.length⟩], ?_, ?_, ?_⟩
  · rw [ended, List.reverse_cons, List.reverse_append, List.append_assoc]
    rfl
  · refine List.forall_mem_append.2 ⟨fun a mem => ?_, List.forall_mem_singleton.2 (Nat.le_refl _)⟩
    exact Nat.le_of_succ_le (deeper a (List.mem_reverse.1 mem)).2
  · simp only [List.filter_append, others, List.nil_append, List.filter_cons, decide_true, if_true, List.filter_nil]
    rfl

end Ledger

namespace Rule
variable {limit levels : Nat} {inner : Inner} {item : Rule Statement}

private def Attempts (item : Rule Statement) : Prop :=
  ∀ s, (item.run s).2.ledger.running = s.ledger.running ∧
    s.ledger.Activates (item.run s).2.ledger [(s.current, (item.run s).1.isSome)]

private theorem attempts_statement (h : inner.Follows limit) : Attempts (statement inner) := by
  intro s
  let inside := (statementOn inner s.current).run s.begun
  have begun : s.begun.ledger = s.ledger.enter (.statementBegun s.current s.peek) := State.ledger_record _ _
  have ended : ((statement inner).run s).2.ledger =
      inside.2.ledger.enter (.statementEnded s.current inside.1.isSome) := State.ledger_record _ _
  obtain ⟨own, adds, running⟩ : ∃ own, s.begun.ledger.Adds (s.ledger.running.length + 1) inside.2.ledger ∧
      inside.2.ledger.running = (s.current, own) :: s.ledger.running := by
    by_cases answered : s.current.kind ∈ Kind.answered
    · have course : Course limit s.begun (.reading 0 inside.1.isNone) inside.2 := Follows.statementOn h answered
      have accounts := course.accounts
      rw [begun] at accounts ⊢
      obtain ⟨adds, own, running, -⟩ := accounts s.current [] s.ledger.running rfl
      exact ⟨own, adds, running⟩
    · have skipped : inside.2 = s.begun := by
        change ((statementOn inner s.current).run s.begun).2 = _
        rw [Follows.statementOn_skip answered]
        rfl
      rw [skipped, begun]
      exact ⟨[], .refl _ _, rfl⟩
  rw [begun] at adds
  rw [ended]
  refine ⟨?_, Ledger.activates_statement _ adds running⟩
  rw [Ledger.enter_statementEnded _ running]

private theorem attempts_topStatement (limit : Nat) : Attempts (topStatement limit) := by
  intro s
  obtain ⟨running, activates⟩ := attempts_statement (followsWithin limit limit).inner s
  rw [run_topStatement]
  cases run : (statement (within limit limit)).run s with
  | mk value t =>
    rw [run] at running activates
    cases value with
    | none => exact ⟨running, activates⟩
    | some tree =>
      have kept : (t.record (.kept tree)).ledger = t.ledger := State.ledger_record _ _
      change (t.record (.kept tree)).ledger.running = _ ∧ s.ledger.Activates (t.record (.kept tree)).ledger _
      rw [kept]
      exact ⟨running, activates⟩

private theorem activates_sequenceFrom (each : Attempts item) (stops : Kind → Bool) (found : List Statement)
    (s : State) :
    (sequenceFrom item stops found s).2.ledger.running = s.ledger.running ∧
      s.ledger.Activates (sequenceFrom item stops found s).2.ledger
        ((attempts item stops s).map attempted) := by
  fun_induction sequenceFrom item stops found s with
  | case1 found s ended =>
    rw [attempts_stops (.inl ended)]
    exact ⟨rfl, .nil _⟩
  | case2 found s proper stopped =>
    rw [attempts_stops (.inr stopped)]
    exact ⟨rfl, .nil _⟩
  | case3 found s proper goes ih =>
    obtain ⟨running, first⟩ := each s
    rw [State.ledger_advance] at ih
    obtain ⟨running', others⟩ := ih
    rw [attempts_step proper goes]
    exact ⟨running'.trans running, first.trans running others⟩

/-- The test for the closing brace ends no activation and uses no token. -/
private theorem closed_outcome (tree : Block) (s : State) :
    ((closed tree).run s).1 = (if s.current.kind = .rightBrace then some tree else none) ∧
      ((closed tree).run s).2.current = s.current ∧ ((closed tree).run s).2.ledger.ended = s.ledger.ended := by
  rw [run_closed]
  split
  · exact ⟨rfl, rfl, rfl⟩
  · refine ⟨rfl, rfl, ?_⟩
    rw [State.ledger_record, Ledger.ended_diagnosed]

/-- A block makes an attempt on every token up to its closing brace or to the end, also if it is refused then. -/
private theorem activates_block {s : State} (levels : Nat) (room : s.depth < limit) :
    let all := attempts (statement (within limit levels)) (· = .rightBrace) s.takeLevel.advance
    let last := ((block limit (levels + 1)).run s).2
    s.ledger.Activates last.ledger (all.map attempted) ∧
      ((block limit (levels + 1)).run s).1 =
        if last.current.kind = .rightBrace then some (.braced s.current (all.filterMap Prod.snd)) else none := by
  intro all last
  let found := contents limit levels s
  have read : found.1 = all.filterMap Prod.snd := sequenceFrom_attempts _ _ _ _
  obtain ⟨-, activates⟩ := activates_sequenceFrom (attempts_statement (followsWithin limit levels).inner)
    (· = .rightBrace) [] s.takeLevel.advance
  rw [State.ledger_advance, State.ledger_takeLevel] at activates
  obtain ⟨value, place, ended⟩ := closed_outcome (.braced s.current found.1) (found.2.returnLevels 1)
  rw [← run_block_of_room room] at value place ended
  rw [State.ledger_returnLevels] at ended
  refine ⟨activates.of_ended ended, ?_⟩
  rw [value, read, place]

end Rule

/-- Fair activations have as many diagnostics as statements were lost in them. -/
private theorem length_flatMap_own {activations : List Activation} (fair : ∀ a ∈ activations, a.Fair) :
    (activations.flatMap Activation.own).length = activations.countP Activation.lost := by
  induction activations with
  | nil => rfl
  | cons a activations ih =>
    rw [List.flatMap_cons, List.length_append, List.countP_cons, fair a List.mem_cons_self,
      ih fun other mem => fair other (List.mem_cons_of_mem a mem), Nat.add_comm]

private theorem ledger_parse (text : String) :
    let journal := (parse text).journal
    journal.ledger.running = [] ∧ journal.ledger.outside = [] ∧ ∀ a ∈ journal.activations, a.Fair := by
  intro journal
  obtain ⟨course, -⟩ := (State.start (.ofText text) .empty).course_finishProgram levelLimit
  obtain ⟨adds, running⟩ := course.accounts
  obtain ⟨added, ended, fair⟩ := adds.ended
  have all : journal.activations = added.reverse := by
    rw [Journal.activations]
    exact congrArg List.reverse (ended.trans (List.append_nil _))
  refine ⟨running, adds.outside, ?_⟩
  rw [all]
  exact fun a mem => (fair a (List.mem_reverse.1 mem)).1

/-- In the end all activations that were started have ended. -/
private theorem tokens_parse (text : String) :
    ∃ started, ((parse text).journal.activations.map Activation.token).Perm started ∧
      started.Sublist (TokenStream.ofText text).tokens := by
  obtain ⟨course, -⟩ := (State.start (.ofText text) .empty).course_finishProgram levelLimit
  obtain ⟨started, begun, used⟩ := course.begun
  refine ⟨started, ?_, (List.sublist_append_left started _).trans used⟩
  have ledger := (parse text).journal.tokens_ledger
  have same : (parse text).journal.begun = started := begun
  rw [Ledger.tokens, (ledger_parse text).1, same] at ledger
  exact ((List.reverse_perm _).map _).trans ledger

/-- Every token on which a block or the program tries to read a statement has an activation of its own, which has
built the statement that is kept from there or none; also in a block that is refused in the end. In a parsed text
every diagnostic is recorded in an activation that has ended. An activation that was lost has exactly one of its own
and every other one has none, so there are as many diagnostics as lost statements. No two activations start on the
same token. -/
theorem one_report_per_lost_statement :
    (∀ (limit levels : Nat) (s : State), s.depth < limit →
      let attempts := Rule.attempts (Rule.statement (Rule.within limit levels)) (· = .rightBrace) s.takeLevel.advance
      let outcome := (Rule.block limit (levels + 1)).run s
      s.ledger.Activates outcome.2.ledger (attempts.map attempted) ∧
        outcome.1 = if outcome.2.current.kind = .rightBrace
          then some (.braced s.current (attempts.filterMap Prod.snd)) else none) ∧
    ∀ text : String,
      let attempts := Rule.attempts (Rule.topStatement levelLimit) (fun _ => false) (.start (.ofText text) .empty)
      let journal := (parse text).journal
      Ledger.empty.Activates journal.ledger (attempts.map attempted) ∧
        (parse text).program = attempts.filterMap Prod.snd ∧
        journal.ledger.running = [] ∧
        journal.ledger.outside = [] ∧
        (journal.activations.flatMap Activation.own).Perm (parse text).diagnostics ∧
        (∀ a ∈ journal.activations, a.own.length = if a.lost then 1 else 0) ∧
        (parse text).diagnostics.length = journal.activations.countP Activation.lost ∧
        (∀ a ∈ journal.activations, a.token ∈ (TokenStream.ofText text).tokens) ∧
        (journal.activations.map Activation.token).Nodup ∧
        (parse text).diagnostics.length ≤ (TokenStream.ofText text).tokens.length := by
  refine ⟨fun limit levels s room => Rule.activates_block levels room, ?_⟩
  intro text attempts journal
  obtain ⟨-, activates⟩ := Rule.activates_sequenceFrom (Rule.attempts_topStatement levelLimit) (fun _ => false) []
    (.start (.ofText text) .empty)
  have program : (parse text).program = attempts.filterMap Prod.snd := Rule.sequenceFrom_attempts _ _ _ _
  obtain ⟨running, outside, fair⟩ := ledger_parse text
  obtain ⟨started, starts, among⟩ := tokens_parse text
  have all : (journal.activations.flatMap Activation.own).Perm (parse text).diagnostics := by
    have ledger := journal.diagnostics_ledger
    rw [Ledger.diagnostics, running, outside] at ledger
    exact (List.Perm.flatMap_right _ (List.reverse_perm _)).trans ledger
  have count : (parse text).diagnostics.length = journal.activations.countP Activation.lost :=
    all.length_eq.symm.trans (length_flatMap_own fair)
  refine ⟨activates, program, running, outside, all, fair, count, fun a mem => ?_, ?_, ?_⟩
  · exact among.subset (starts.subset (List.mem_map_of_mem mem))
  · exact starts.nodup_iff.2 ((TokenStream.nodup_tokens text).sublist among)
  · calc (parse text).diagnostics.length
      _ = journal.activations.countP Activation.lost := count
      _ ≤ journal.activations.length := List.countP_le_length
      _ = started.length := by rw [← starts.length_eq, List.length_map]
      _ ≤ (TokenStream.ofText text).tokens.length := among.length_le

/-- The second statement of the body has no value, and the text ends before the body is closed. So the body is
refused, and with it the statement that was built. -/
theorem one_report_per_lost_statement_refused_block :
    let body := State.start (.ofText "\x7b x = 1; y = ") .empty
    let refused := (Rule.block levelLimit levelLimit).run body
    let parsed := parse "fn() \x7b x = 1; y = "
    body.depth < levelLimit ∧ refused.1.isNone = true ∧
      body.ledger.Activates refused.2.ledger
        [(⟨.identifier, "x", ⟨1, 3⟩⟩, true), (⟨.identifier, "y", ⟨1, 10⟩⟩, false)] ∧
      (parsed.journal.activations.map fun a => (a.token.literal, a.depth, a.built, a.own.length)) =
        [("x", 1, true, 0), ("y", 1, false, 1), ("fn", 0, false, 1)] ∧
      parsed.program.isEmpty = true ∧ parsed.diagnostics.length = 2 := by
  intro body refused parsed
  have room : body.depth < levelLimit := by decide
  obtain ⟨blocks, texts⟩ := one_report_per_lost_statement
  obtain ⟨activates, -⟩ := blocks levelLimit 127 body room
  obtain ⟨-, -, -, -, -, -, count, -⟩ := texts "fn() \x7b x = 1; y = "
  have tried : (Rule.attempts (Rule.statement (Rule.within levelLimit 127)) (· = .rightBrace)
      body.takeLevel.advance).map attempted =
      [(⟨.identifier, "x", ⟨1, 3⟩⟩, true), (⟨.identifier, "y", ⟨1, 10⟩⟩, false)] := by decide +kernel
  have lost : parsed.journal.activations.countP Activation.lost = 2 := by decide +kernel
  rw [tried] at activates
  exact ⟨room, by decide +kernel, activates, by decide +kernel, by decide +kernel, count.trans lost⟩

end LittleScript

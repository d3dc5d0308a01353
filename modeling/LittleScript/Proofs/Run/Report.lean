import LittleScript.Proofs.Grammar.Basic
import LittleScript.Proofs.Rule.Follow.Nested
import LittleScript.Proofs.Token.Order

/-!
What the diagnostics of a run say, and in which order. Each points at a token that it describes. Most
point at the current token and some at the one behind it, but then nothing else is reported before the
run has moved on, so none points behind one that follows it.
-/

namespace LittleScript

open Run

inductive Describes (limit : Nat) (stream : TokenStream) (token : Token) : Cause → Prop where
  | unexpected {expected} (other : expected ≠ token.kind) :
      Describes limit stream token (.unexpected expected token.kind)
  | noExpression (legal : token.kind ≠ .illegal)
      (none : ∀ other tree rest peak, other.kind = token.kind →
        ¬ Grammar.Derives (.whole tree) (other :: rest) peak) :
      Describes limit stream token (.noExpression token.kind)
  | integerTooLarge (kind : token.kind = .integer)
      (large : Numeral.largest < Numeral.value token.literal.toList) :
      Describes limit stream token (.integerTooLarge token.literal)
  | illegalCharacter (kind : token.kind = .illegal) :
      Describes limit stream token (.illegalCharacter token.literal)
  | unterminatedBlock {brace} (left : brace ∈ stream.tokens) (opens : brace.kind = .leftBrace)
      (ended : token = Token.endMark stream.finish) :
      Describes limit stream token (.unterminatedBlock brace.location)
  | nestingTooDeep : Describes limit stream token (.nestingTooDeep limit)

def Diagnostic.Truthful (limit : Nat) (stream : TokenStream) (d : Diagnostic) : Prop :=
  ∃ token ∈ stream.toList, d.location = token.location ∧ Describes limit stream token d.cause

namespace Run

namespace State

abbrev left (s : State) : TokenStream := ⟨s.tokens, s.finish⟩

theorem current_mem (s : State) : s.current ∈ s.left.toList := by
  cases tokens : s.tokens with
  | nil => simp [current, TokenStream.toList, tokens]
  | cons token rest => simp [current, TokenStream.toList, tokens]

/-- The end mark stays where it is. -/
theorem Leads.toList {s t : State} (h : s.Leads t) : t.left.toList <:+ s.left.toList := by
  obtain ⟨front, used⟩ := h.tokens
  refine ⟨front, ?_⟩
  simp only [TokenStream.toList, h.finish, ← used, List.append_assoc]

private theorem peek_mem (s : State) : s.peek ∈ s.left.toList :=
  (Leads.advance s).toList.subset s.advance.current_mem

end State

section
variable {limit : Nat} {s t : State} {d : Diagnostic} {part : Part}

private theorem describes_of_leads {token : Token} {cause : Cause} (led : s.Leads t)
    (h : Describes limit t.left token cause) : Describes limit s.left token cause := by
  cases h with
  | unexpected other => exact .unexpected other
  | noExpression legal none => exact .noExpression legal none
  | integerTooLarge kind large => exact .integerTooLarge kind large
  | illegalCharacter kind => exact .illegalCharacter kind
  | unterminatedBlock left opens ended =>
    exact .unterminatedBlock (led.tokens.subset left) opens (ended.trans (congrArg Token.endMark led.finish))
  | nestingTooDeep => exact .nestingTooDeep

private theorem truthful_of_leads (led : s.Leads t) (h : d.Truthful limit t.left) : d.Truthful limit s.left := by
  obtain ⟨token, left, place, describes⟩ := h
  exact ⟨token, led.toList.subset left, place, describes_of_leads led describes⟩

private theorem State.Reportable.truthful (h : s.Reportable limit d) : d.Truthful limit s.left := by
  cases h with
  | unexpected other => exact ⟨s.peek, s.peek_mem, rfl, .unexpected (Ne.symm other)⟩
  | noExpression other legal =>
    refine ⟨s.current, s.current_mem, rfl, .noExpression legal ?_⟩
    intro token tree rest peak same derives
    have begins := derives.beginsOperand
    rw [Grammar.BeginsOperand, headKind_cons, same] at begins
    exact other begins
  | integerTooLarge kind large => exact ⟨s.current, s.current_mem, rfl, .integerTooLarge kind large⟩
  | illegalCharacter kind => exact ⟨s.current, s.current_mem, rfl, .illegalCharacter kind⟩
  | nestingTooDeep => exact ⟨s.current, s.current_mem, rfl, .nestingTooDeep⟩

private def State.Tells (limit : Nat) (s t : State) : Prop :=
  ∀ d ∈ t.journal.diagnostics, d ∈ s.journal.diagnostics ∨ d.Truthful limit s.left

private theorem State.Tells.silent (h : s.Tells limit t) {u : State} (rest : t.Silent u) : s.Tells limit u := by
  intro d mem
  rw [rest] at mem
  exact h d mem

private theorem State.Tells.report (h : s.Tells limit t) (fitting : d.Truthful limit s.left) :
    s.Tells limit (t.record (.diagnosed d)) := by
  intro e mem
  rw [State.diagnostics_diagnosed] at mem
  obtain old | new := List.mem_append.1 mem
  · exact h e old
  · obtain rfl := List.mem_singleton.1 new
    exact .inr fitting

private theorem State.Tells.trans (h : s.Tells limit t) (led : s.Leads t) {u : State} (rest : t.Tells limit u) :
    s.Tells limit u := by
  intro d mem
  obtain old | fitting := rest d mem
  · exact h d old
  · exact .inr (truthful_of_leads led fitting)

/-- Every diagnostic of a course is true of the tokens from its first one on. -/
private theorem Course.tells (h : Course limit s part t) : s.Tells limit t := by
  induction h with
  | start => exact fun d mem => .inl mem
  | advance _ ih => exact ih.silent (State.diagnostics_advance _)
  | expression _ _ ih => exact ih.silent (State.quiet_record _ _ rfl).silent
  | takeLevel _ _ ih => exact ih.silent (State.diagnostics_takeLevel _)
  | returnLevels count _ ih => exact ih.silent (State.diagnostics_returnLevels _ count)
  | report before fitting ih => exact ih.report (truthful_of_leads before.leads fitting.truthful)
  | @block s t u _ before _ _ _ _ ih inside =>
    have opened : s.Tells limit t.takeLevel.advance :=
      ih.silent ((State.diagnostics_advance _).trans (State.diagnostics_takeLevel t))
    have led := before.leads.trans ((State.Leads.takeLevel t).trans (.advance _))
    exact (opened.trans led inside).silent (State.diagnostics_returnLevels u 1)
  | @unterminated s t u _ before opens _ within ended ih inside =>
    have opened : s.Tells limit t.takeLevel.advance :=
      ih.silent ((State.diagnostics_advance _).trans (State.diagnostics_takeLevel t))
    have led := before.leads.trans ((State.Leads.takeLevel t).trans (.advance _))
    have whole := (opened.trans led inside).silent (State.diagnostics_returnLevels u 1)
    apply whole.report
    have mark : u.current = Token.endMark s.finish := by
      rw [State.current, ended, within.leads.finish]
      exact congrArg Token.endMark led.finish
    have brace : t.current ∈ s.tokens := by
      apply before.leads.tokens.subset
      rw [State.tokens_of_current (s := t) (by rw [opens]; decide)]
      exact List.mem_cons_self
    exact ⟨u.current, (led.trans within.leads).toList.subset u.current_mem, rfl,
      .unterminatedBlock brace opens mark⟩
  | none => exact fun d mem => .inl mem
  | @statement s t u v _ before _ _ _ ended ih inside =>
    have begun : s.Tells limit t.begun := ih.silent (State.quiet_record _ _ rfl).silent
    have whole := begun.trans (before.leads.trans (.record _ _)) inside
    exact (whole.silent ended.quiet.silent).silent (State.diagnostics_advance v)
  | @skipped s t v _ _ _ ended ih =>
    have begun : s.Tells limit t.begun := ih.silent (State.quiet_record _ _ rfl).silent
    exact (begun.silent ended.quiet.silent).silent (State.diagnostics_advance v)

private def State.Ordered (s : State) : Prop := s.left.toList.Pairwise fun a b => a.location ≤ b.location

private theorem State.Ordered.leads (h : s.Ordered) (led : s.Leads t) : t.Ordered := h.sublist led.toList.sublist

/-- The end mark stands behind itself, as often as the run moves on to it. -/
private theorem State.Ordered.current_le_peek (h : s.Ordered) : s.current.location ≤ s.peek.location := by
  cases tokens : s.tokens with
  | nil =>
    have same : s.peek = s.current := by rw [State.peek, State.current, tokens]; rfl
    rw [same]
  | cons token rest =>
    have first : s.left.toList = token :: s.advance.left.toList := by
      simp only [TokenStream.toList, State.tokens_advance, tokens]
      rfl
    rw [State.Ordered, first, List.pairwise_cons] at h
    rw [State.current_of_tokens tokens]
    exact h.1 s.peek s.advance.current_mem

private def Heard (diagnostics : List Diagnostic) (place : Location) : Prop :=
  diagnostics.Pairwise (fun a b => a.location ≤ b.location) ∧ ∀ d ∈ diagnostics, d.location ≤ place

private theorem Heard.mono {diagnostics : List Diagnostic} {place later : Location} (h : Heard diagnostics place)
    (le : place ≤ later) : Heard diagnostics later := ⟨h.1, fun d mem => le_trans (h.2 d mem) le⟩

private theorem Heard.report {diagnostics : List Diagnostic} {place later : Location} (h : Heard diagnostics place)
    (after : place ≤ d.location) (before : d.location ≤ later) : Heard (diagnostics ++ [d]) later := by
  refine ⟨List.pairwise_append.2 ⟨h.1, List.pairwise_singleton _ _, ?_⟩, ?_⟩
  · intro a mem b only
    obtain rfl := List.mem_singleton.1 only
    exact le_trans (h.2 a mem) after
  · intro a mem
    obtain old | new := List.mem_append.1 mem
    · exact le_trans (h.2 a old) (le_trans after before)
    · obtain rfl := List.mem_singleton.1 new
      exact before

/-- A report points at the current token or at the one behind it. -/
private theorem State.Reportable.between (h : s.Reportable limit d) (order : s.Ordered) :
    s.current.location ≤ d.location ∧ d.location ≤ s.peek.location := by
  have passed := order.current_le_peek
  cases h with
  | unexpected other => exact ⟨passed, le_refl _⟩
  | noExpression other legal => exact ⟨le_refl _, passed⟩
  | integerTooLarge kind large => exact ⟨le_refl _, passed⟩
  | illegalCharacter kind => exact ⟨le_refl _, passed⟩
  | nestingTooDeep => exact ⟨le_refl _, passed⟩

/-- The token behind which no diagnostic points. After a refusal it is the one behind the current. -/
private def State.frontier (t : State) : Part → Token
  | .reading _ true => t.peek
  | .reading _ false | .statements => t.current

/-- The diagnostics stay in order. -/
private theorem Course.heard (h : Course limit s part t) (order : s.Ordered)
    (before : Heard s.journal.diagnostics s.current.location) :
    Heard t.journal.diagnostics (t.frontier part).location := by
  induction h with
  | start => exact before
  | @advance s t _ course ih =>
    have passed := (order.leads course.leads).current_le_peek
    rw [State.diagnostics_advance]
    exact (ih order before).mono passed
  | @expression s t _ _ precedence ih =>
    have silent := (t.quiet_record (.expressionBegun t.current precedence) rfl).silent
    rw [silent]
    exact ih order before
  | takeLevel _ _ ih =>
    rw [State.diagnostics_takeLevel]
    exact ih order before
  | @returnLevels _ t held refused count _ ih =>
    have same : (t.returnLevels count).frontier (.reading held refused) =
        t.frontier (.reading (held + count) refused) := by cases refused <;> rfl
    rw [State.diagnostics_returnLevels, same]
    exact ih order before
  | report course fitting ih =>
    obtain ⟨behind, inFront⟩ := fitting.between (order.leads course.leads)
    rw [State.diagnostics_diagnosed]
    exact (ih order before).report behind inFront
  | @block s t u _ course _ _ _ _ ih inside =>
    have later := order.leads course.leads
    have opened := (ih order before).mono later.current_le_peek
    have led : t.Leads t.takeLevel.advance := (State.Leads.takeLevel t).trans (.advance _)
    rw [State.diagnostics_returnLevels]
    apply inside (later.leads led)
    rw [State.diagnostics_advance, State.diagnostics_takeLevel]
    exact opened
  | @unterminated s t u _ course _ _ within ended ih inside =>
    have later := order.leads course.leads
    have opened := (ih order before).mono later.current_le_peek
    have led : t.Leads t.takeLevel.advance := (State.Leads.takeLevel t).trans (.advance _)
    have read : Heard u.journal.diagnostics u.current.location := by
      apply inside (later.leads led)
      rw [State.diagnostics_advance, State.diagnostics_takeLevel]
      exact opened
    have passed := ((later.leads led).leads within.leads).current_le_peek
    rw [State.diagnostics_diagnosed, State.diagnostics_returnLevels]
    exact read.report (le_refl _) passed
  | none => exact before
  | @statement s t u v refused course _ _ within ended ih inside =>
    have start := t.quiet_record (.statementBegun t.current t.peek) rfl
    have later := (order.leads course.leads).leads (.record t (.statementBegun t.current t.peek))
    have read : Heard u.journal.diagnostics (u.frontier (.reading 0 refused)).location := by
      apply inside later
      rw [start.silent]
      exact ih order before
    have passed : (u.frontier (.reading 0 refused)).location ≤ u.peek.location := by
      cases refused with
      | false => exact (later.leads within.leads).current_le_peek
      | true => exact le_refl _
    rw [State.diagnostics_advance, ended.quiet.silent, State.frontier, State.current_advance, ended.peek]
    exact read.mono passed
  | @skipped s t v course _ _ ended ih =>
    have start := t.quiet_record (.statementBegun t.current t.peek) rfl
    have passed := (order.leads course.leads).current_le_peek
    rw [State.diagnostics_advance, ended.quiet.silent, State.frontier, State.current_advance, ended.peek,
      start.silent]
    exact (ih order before).mono passed

end
end Run

/-- The diagnostics of a stream describe its tokens. -/
theorem Parsed.truthful_ofStream (limit : Nat) (stream : TokenStream) :
    ∀ d ∈ (ofStream limit stream).diagnostics, d.Truthful limit stream := by
  intro d mem
  obtain ⟨course, -⟩ := (State.start stream .empty).course_finishProgram limit
  obtain old | fitting := course.tells d mem
  · exact absurd old List.not_mem_nil
  · exact fitting

/-- The diagnostics of a parsed text are in reading order, and each points at a token of the text, or at
the end mark, that it describes. -/
theorem diagnostics_ordered_truthful (text : String) :
    (parse text).diagnostics.Pairwise (fun a b => a.location ≤ b.location) ∧
      ∀ d ∈ (parse text).diagnostics, ∃ token ∈ (TokenStream.ofText text).toList,
        d.location = token.location ∧ Describes levelLimit (.ofText text) token d.cause := by
  let start := Run.State.start (.ofText text) .empty
  have parsed : (parse text).diagnostics = (start.finishProgram levelLimit).2.journal.diagnostics := rfl
  obtain ⟨course, -⟩ := start.course_finishProgram levelLimit
  have order : start.Ordered := (TokenStream.ordered_toList text).imp le_of_lt
  have nothing : Heard start.journal.diagnostics start.current.location :=
    ⟨.nil, fun _ none => absurd none List.not_mem_nil⟩
  rw [parsed]
  refine ⟨(course.heard order nothing).1, fun d mem => ?_⟩
  obtain old | fitting := course.tells d mem
  · exact absurd old List.not_mem_nil
  · exact fitting

end LittleScript

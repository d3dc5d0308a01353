import LittleScript.Proofs.Grammar.Beginning

/-!
All that a run of the parser can do between two states, step by step: which steps follow each other,
what is reported where, and which levels are open. What holds of every course of a run is proved by
induction on it.
-/

namespace LittleScript

/-- Where a statement may start on a token of this kind, it is built or something is reported. All
other tokens are passed over there. -/
def Kind.answered : List Kind := .illegal :: Grammar.beginnings

namespace Run

inductive State.Reportable (limit : Nat) (s : State) : Diagnostic → Prop where
  | unexpected {kind} (other : s.peek.kind ≠ kind) :
      Reportable limit s ⟨.unexpected kind s.peek.kind, s.peek.location⟩
  | noExpression (other : s.current.kind ∉ Grammar.operandBeginnings)
      (legal : s.current.kind ≠ .illegal) :
      Reportable limit s ⟨.noExpression s.current.kind, s.current.location⟩
  | integerTooLarge (kind : s.current.kind = .integer)
      (large : Numeral.largest < Numeral.value s.current.literal.toList) :
      Reportable limit s ⟨.integerTooLarge s.current.literal, s.current.location⟩
  | illegalCharacter (kind : s.current.kind = .illegal) :
      Reportable limit s ⟨.illegalCharacter s.current.literal, s.current.location⟩
  | nestingTooDeep : Reportable limit s ⟨.nestingTooDeep limit, s.current.location⟩

inductive Part where
  /-- Something that starts on the first token. In the end `held` more levels are open, and if it was
  `refused` its last report is the reason. -/
  | reading (held : Nat) (refused : Bool)
  /-- Statements one after the other. In the end the next one may start. -/
  | statements

def Part.levels : Part → Nat
  | .reading held _ => held
  | .statements => 0

/-- The activation that started on the token ends. If it built a statement, that may become part of the
program. -/
def State.Ends (u : State) (token : Token) (built : Bool) (v : State) : Prop :=
  v = u.record (.statementEnded token built) ∨
    ∃ tree, built = true ∧ v = (u.record (.statementEnded token built)).record (.kept tree)

/-- The second state comes after the first in a course of a run. -/
inductive Course (limit : Nat) : State → Part → State → Prop where
  | start {s} : Course limit s (.reading 0 false) s
  | advance {s t held} (before : Course limit s (.reading held false) t) :
      Course limit s (.reading held false) t.advance
  | expression {s t held} (before : Course limit s (.reading held false) t) (precedence : Precedence) :
      Course limit s (.reading held false) (t.record (.expressionBegun t.current precedence))
  | takeLevel {s t held} (before : Course limit s (.reading held false) t) (room : t.depth < limit) :
      Course limit s (.reading (held + 1) false) t.takeLevel
  | returnLevels {s t held refused} (count : Nat)
      (before : Course limit s (.reading (held + count) refused) t) :
      Course limit s (.reading held refused) (t.returnLevels count)
  | report {s t held d} (before : Course limit s (.reading held false) t) (fitting : t.Reportable limit d) :
      Course limit s (.reading held true) (t.record (.diagnosed d))
  /-- A block is read up to its closing brace. -/
  | block {s t u held} (before : Course limit s (.reading held false) t)
      (opens : t.current.kind = .leftBrace) (room : t.depth < limit)
      (inside : Course limit t.takeLevel.advance .statements u) (closes : u.current.kind = .rightBrace) :
      Course limit s (.reading held false) (u.returnLevels 1)
  /-- A block is read up to the end. -/
  | unterminated {s t u held} (before : Course limit s (.reading held false) t)
      (opens : t.current.kind = .leftBrace) (room : t.depth < limit)
      (inside : Course limit t.takeLevel.advance .statements u) (ended : u.tokens = []) :
      Course limit s (.reading held true) ((u.returnLevels 1).record
        (.diagnosed ⟨.unterminatedBlock t.current.location, u.current.location⟩))
  | none {s} : Course limit s .statements s
  /-- A statement is built, or it is refused and left out. -/
  | statement {s t u v refused} (before : Course limit s .statements t) (proper : t.tokens ≠ [])
      (answered : t.current.kind ∈ Kind.answered) (inside : Course limit t.begun (.reading 0 refused) u)
      (ended : u.Ends t.current (!refused) v) :
      Course limit s .statements v.advance
  /-- A token is passed over. -/
  | skipped {s t v} (before : Course limit s .statements t) (proper : t.tokens ≠ [])
      (other : t.current.kind ∉ Kind.answered) (ended : t.begun.Ends t.current false v) :
      Course limit s .statements v.advance

namespace State.Ends
variable {u v : State} {token : Token} {built : Bool}

private theorem leads (h : u.Ends token built v) : u.Leads v := by
  obtain rfl | ⟨tree, -, rfl⟩ := h
  · exact .record _ _
  · exact (State.Leads.record _ _).trans (.record _ _)

theorem quiet (h : u.Ends token built v) : u.Quiet v := by
  obtain rfl | ⟨tree, -, rfl⟩ := h
  · exact u.quiet_record _ rfl
  · exact (u.quiet_record _ rfl).trans (State.quiet_record _ _ rfl)

theorem tokens (h : u.Ends token built v) : v.tokens = u.tokens := by
  obtain rfl | ⟨tree, -, rfl⟩ := h
  · rfl
  · rfl

theorem peek (h : u.Ends token built v) : v.peek = u.peek := by
  rw [State.peek, State.peek, h.tokens, h.quiet.finish]

end State.Ends

namespace Course
variable {limit : Nat} {s t u : State} {part : Part} {held : Nat} {refused : Bool}

theorem leads (h : Course limit s part t) : s.Leads t := by
  induction h with
  | start => exact .refl _
  | advance _ ih => exact ih.trans (.advance _)
  | expression _ _ ih => exact ih.trans (.record _ _)
  | takeLevel _ _ ih => exact ih.trans (.takeLevel _)
  | returnLevels count _ ih => exact ih.trans (.returnLevels _ count)
  | report _ _ ih => exact ih.trans (.record _ _)
  | block _ _ _ _ _ before inside =>
    exact before.trans ((State.Leads.takeLevel _).trans ((State.Leads.advance _).trans
      (inside.trans (.returnLevels _ 1))))
  | unterminated _ _ _ _ _ before inside =>
    exact before.trans ((State.Leads.takeLevel _).trans ((State.Leads.advance _).trans
      (inside.trans ((State.Leads.returnLevels _ 1).trans (.record _ _)))))
  | none => exact .refl _
  | statement _ _ _ _ ended before inside =>
    exact before.trans ((State.Leads.record _ _).trans (inside.trans (ended.leads.trans (.advance _))))
  | skipped _ _ _ ended before =>
    exact before.trans ((State.Leads.record _ _).trans (ended.leads.trans (.advance _)))

/-- Exactly the levels that are held stay open. -/
theorem depth (h : Course limit s part t) : t.depth = s.depth + part.levels := by
  induction h with
  | start => rfl
  | advance _ ih => exact ih
  | expression _ _ ih => exact ih
  | takeLevel _ _ ih => exact congrArg (· + 1) ih
  | returnLevels count _ ih =>
    simp only [Part.levels, State.depth_returnLevels] at ih ⊢
    omega
  | report _ _ ih => exact ih
  | block _ _ _ _ _ before inside =>
    rw [State.depth_returnLevels, inside]
    exact before
  | unterminated _ _ _ _ _ before inside =>
    rw [State.depth_record, State.depth_returnLevels, inside]
    exact before
  | none => rfl
  | statement _ _ _ _ ended before inside =>
    rw [State.depth_advance, ended.quiet.depth, inside]
    exact before
  | skipped _ _ _ ended before =>
    rw [State.depth_advance, ended.quiet.depth]
    exact before

/-- What is refused is reported. -/
theorem not_silent (h : Course limit s (.reading held true) t) : ¬ s.Silent t := by
  generalize same : Part.reading held true = part at h
  induction h generalizing held with
  | returnLevels count _ ih =>
    cases same
    exact fun silent => ih rfl ((State.diagnostics_returnLevels _ count).symm.trans silent)
  | report before _ _ =>
    intro silent
    exact State.not_silent_diagnosed _ _ (silent.split before.leads (.record _ _)).2
  | unterminated before _ _ inside _ _ _ =>
    intro silent
    have led := before.leads.trans ((State.Leads.takeLevel _).trans ((State.Leads.advance _).trans
      (inside.leads.trans (.returnLevels _ 1))))
    exact State.not_silent_diagnosed _ _ (silent.split led (.record _ _)).2
  | _ => cases same

/-- A course of reading goes on behind another one. -/
theorem append (first : Course limit s (.reading held false) t) {more : Nat}
    (second : Course limit t (.reading more refused) u) :
    Course limit s (.reading (held + more) refused) u := by
  generalize same : Part.reading more refused = part at second
  induction second generalizing more refused with
  | start =>
    cases same
    exact first
  | advance _ ih =>
    cases same
    exact (ih first rfl).advance
  | expression _ precedence ih =>
    cases same
    exact (ih first rfl).expression precedence
  | takeLevel _ room ih =>
    cases same
    exact (ih first rfl).takeLevel room
  | returnLevels count _ ih =>
    cases same
    have whole := ih first rfl
    rw [← Nat.add_assoc] at whole
    exact whole.returnLevels count
  | report _ fitting ih =>
    cases same
    exact (ih first rfl).report fitting
  | block _ opens room inside closes ih =>
    cases same
    exact (ih first rfl).block opens room inside closes
  | unterminated _ opens room inside ended ih =>
    cases same
    exact (ih first rfl).unterminated opens room inside ended
  | none => cases same
  | statement => cases same
  | skipped => cases same

/-- Statements follow other ones. -/
theorem follow (first : Course limit s .statements t) (second : Course limit t .statements u) :
    Course limit s .statements u := by
  generalize same : Part.statements = part at second
  induction second with
  | none => exact first
  | statement _ proper answered inside ended ih => exact (ih first same).statement proper answered inside ended
  | skipped _ proper other ended ih => exact (ih first same).skipped proper other ended
  | _ => cases same

end Course
end Run
end LittleScript

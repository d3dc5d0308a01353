import LittleScript.Proofs.Rule.Congruence
import LittleScript.Proofs.Rule.Nested

/-!
The same rules under a lower and a higher limit. As long as the lower one is not reported, both runs are the
same run, step by step, also through what cannot be read.
-/

namespace LittleScript

open Run

private def Comparison.untilLimit (limit : Nat) : Comparison where
  Same := Eq
  Lost := State.TooDeep limit
  tokens same := by rw [same]
  finish same := by rw [same]
  record _ same := by rw [same]
  advance same := by rw [same]
  lost before deep behind := deep.extend before behind

namespace Rule

variable {low high levels more : Nat}

private def ChainAgree (limit : Nat) (a b : Chain) : Prop :=
  ∀ s, s.TooDeep limit (a.run s).2.2 ∨ b.run s = a.run s

/-- Rules that agree on inputs of any length do the same from every state, unless the limit is reported. -/
private theorem eq_of_agree {α : Type} {a b : Rule α} (h : ∀ size, Agree (.untilLimit low) size a b) (s : State) :
    s.TooDeep low (a.run s).2 ∨ b.run s = a.run s := by
  obtain lost | ⟨value, same⟩ := h s.tokens.length s s rfl (Nat.le_refl _)
  · exact .inl lost
  · exact .inr (Prod.ext value (Eq.symm same))

private theorem agree_of_eq {α : Type} {a b : Rule α} (h : ∀ s, s.TooDeep low (a.run s).2 ∨ b.run s = a.run s)
    (size : Nat) : Agree (.untilLimit low) size a b := by
  rintro s _ rfl _
  obtain lost | same := h s
  · exact .inl lost
  · exact .inr ⟨congrArg Prod.fst same, (congrArg Prod.snd same).symm⟩

private theorem ChainAgree.andThen {α : Type} {a b : Rule α} (held : Nat) {follow goes : α → Chain}
    (first : ∀ size, Agree (.untilLimit low) size a b) (rest : ∀ x, ChainAgree low (follow x) (goes x)) :
    ChainAgree low (.andThen a held follow) (.andThen b held goes) := by
  intro s
  obtain lost | same := eq_of_agree first s
  · exact .inl (lost.extend (.refl s) (leads_chain a held follow s))
  · rw [Chain.run_andThen, Chain.run_andThen, same]
    cases run : a.run s with
    | mk value t =>
      cases value with
      | none => exact .inr rfl
      | some x => exact (rest x t).imp (fun lost => lost.extend (leads_of_run run) (.refl _)) id

private theorem ChainAgree.close {a b : Chain} (h : ChainAgree low a b) (s : State) :
    s.TooDeep low (a.close.run s).2 ∨ b.close.run s = a.close.run s := by
  obtain lost | same := h s
  · exact .inl (lost.extend (.refl s) (.returnLevels _ _))
  · rw [Chain.run_close, Chain.run_close, same]
    exact .inr rfl

/-- What the nested rules do with some levels to open under the lower limit, they do with `more` under the
higher one. -/
private structure AgreeWithin (low high levels more : Nat) : Prop where
  inner : ∀ size, Inner.Agree (.untilLimit low) size (within low levels) (within high more)
  links : ∀ precedence left held,
    ChainAgree low (links low levels precedence left held) (links high more precedence left held)

private theorem agreeWithin_zero (low high more : Nat) : AgreeWithin low high 0 more where
  inner := by
    intro size
    refine ⟨fun precedence _ => agree_of_eq (fun s => .inl ?_) size, agree_of_eq (fun s => .inl ?_) size⟩
    · change s.TooDeep low ((expression low 0 precedence).run s).2
      rw [run_expression_zero]
      exact (State.tooDeep_refused low _).extend (.record s _) (.refl _)
    · change s.TooDeep low ((block low 0).run s).2
      rw [run_block_zero]
      exact State.tooDeep_refused low s
  links precedence left held s := by
    cases above : linkAbove? precedence s.peek.kind with
    | none =>
      rw [run_links_unlinked above, run_links_unlinked above]
      exact .inr rfl
    | some link =>
      rw [run_links_zero above]
      exact .inl (State.tooDeep_refused low s)

/-- Where the lower limit leaves a level to open, so does the higher one. -/
private theorem expression_agree (le : low ≤ high) (h : AgreeWithin low high levels more) (precedence : Precedence)
    (s : State) :
    s.TooDeep low ((expression low (levels + 1) precedence).run s).2 ∨
      (expression high (more + 1) precedence).run s = (expression low (levels + 1) precedence).run s := by
  rw [run_expression_succ, run_expression_succ]
  by_cases room : s.depth < low
  · rw [if_pos room, if_pos (Nat.lt_of_lt_of_le room le)]
    have chains := ChainAgree.andThen 1 (fun size => (Agree.operand (h.inner size)).mono (Nat.le_succ size))
      fun left => h.links precedence left 1
    have led : s.Leads (entered precedence s).takeLevel := (State.Leads.record s _).trans (.takeLevel _)
    exact (chains.close _).imp (fun lost => lost.extend led (.refl _)) id
  · rw [if_neg room]
    exact .inl ((State.tooDeep_refused low _).extend (.record s _) (.refl _))

private theorem block_agree (le : low ≤ high) (h : AgreeWithin low high levels more) (s : State) :
    s.TooDeep low ((block low (levels + 1)).run s).2 ∨
      (block high (more + 1)).run s = (block low (levels + 1)).run s := by
  rw [run_block_succ, run_block_succ]
  by_cases room : s.depth < low
  · rw [if_pos room, if_pos (Nat.lt_of_lt_of_le room le)]
    have opened := eq_of_agree fun size => (Agree.openBlock (h.inner size)).mono (Nat.le_succ size)
    have returned : ∀ size, Agree (.untilLimit low) size ((openBlock (within low levels)).andReturnLevels 1)
        ((openBlock (within high more)).andReturnLevels 1) := by
      apply agree_of_eq
      intro t
      obtain lost | same := opened t
      · exact .inl (lost.extend (.refl t) (.returnLevels _ _))
      · rw [run_andReturnLevels, run_andReturnLevels, same]
        exact .inr rfl
    have whole := eq_of_agree fun size => (returned size).bind fun tree => Agree.closed tree
    exact (whole s.takeLevel).imp (fun lost => lost.extend (.takeLevel s) (.refl _)) id
  · rw [if_neg room]
    exact .inl (State.tooDeep_refused low s)

private theorem links_agree (le : low ≤ high) (h : AgreeWithin low high levels more) (precedence : Precedence)
    (left : Expression) (held : Nat) :
    ChainAgree low (links low (levels + 1) precedence left held)
      (links high (more + 1) precedence left held) := by
  intro s
  cases above : linkAbove? precedence s.peek.kind with
  | none =>
    rw [run_links_unlinked above, run_links_unlinked above]
    exact .inr rfl
  | some link =>
    rw [run_links_succ above, run_links_succ above]
    by_cases room : s.depth < low
    · rw [if_pos room, if_pos (Nat.lt_of_lt_of_le room le)]
      have chains := ChainAgree.andThen (held + 1)
        (fun size => (Agree.linked (h.inner size) link left).mono (Nat.le_succ size))
        fun left => h.links precedence left (held + 1)
      exact (chains s.takeLevel).imp (fun lost => lost.extend (.takeLevel s) (.refl _)) id
    · rw [if_neg room]
      exact .inl (State.tooDeep_refused low s)

private theorem agreeWithin (le : low ≤ high) (fewer : levels ≤ more) : AgreeWithin low high levels more := by
  induction levels generalizing more with
  | zero => exact agreeWithin_zero low high more
  | succ levels ih =>
    cases more with
    | zero => exact absurd fewer (Nat.not_succ_le_zero levels)
    | succ more =>
      have inside := ih (Nat.le_of_succ_le_succ fewer)
      refine ⟨fun size => ⟨fun precedence _ => ?_, ?_⟩, links_agree le inside⟩
      · exact agree_of_eq (expression_agree le inside precedence) size
      · exact agree_of_eq (block_agree le inside) size

/-- A statement of the program itself may use all levels of its limit. -/
private theorem agree_topStatement (le : low ≤ high) (size : Nat) :
    Agree (.untilLimit low) size (topStatement low) (topStatement high) := by
  have inner := (agreeWithin le le).inner size
  refine ((Agree.statement inner).mono (Nat.le_succ size)).bind fun tree => ?_
  exact (Agree.record _).bind fun _ => .pure tree

end Rule

/-- A limit that is not reached has no influence: under every higher one the run is the same, entry by entry,
whatever else is reported in it. -/
private theorem Run.State.finishProgram_of_limit_le {low high : Nat} (le : low ≤ high) (s : State)
    (shallow : ¬ s.TooDeep low (s.finishProgram low).2) : s.finishProgram high = s.finishProgram low := by
  have agree := Rule.Agree.sequenceFrom (Rule.agree_topStatement le s.tokens.length) (fun _ => false) []
  obtain lost | ⟨program, same⟩ := agree s s rfl (Nat.le_refl _)
  · exact absurd lost shallow
  · exact Prod.ext program (Eq.symm same)

/-- A limit of levels that is not reported for a text has no influence on what is parsed: under every higher
limit there are the same program and the same diagnostics, also if there are errors. -/
theorem Parsed.ofStream_of_limit_le {low high : Nat} (le : low ≤ high) (text : String)
    (shallow : ∀ d ∈ (ofStream low (.ofText text)).diagnostics, ∀ limit, d.cause ≠ .nestingTooDeep limit) :
    (ofStream high (.ofText text)).program = (ofStream low (.ofText text)).program ∧
      (ofStream high (.ofText text)).diagnostics = (ofStream low (.ofText text)).diagnostics := by
  let start := State.start (.ofText text) .empty
  have kept : ¬ start.TooDeep low (start.finishProgram low).2 :=
    start.not_tooDeep fun d mem => shallow d mem low
  have same : start.finishProgram high = start.finishProgram low := start.finishProgram_of_limit_le le kept
  refine ⟨congrArg Prod.fst same, ?_⟩
  exact congrArg (fun outcome => outcome.2.journal.diagnostics) same

def shallowErrors : String := "if (a) \x7b b = (1; let 2 \x7d c = -d #; e = f;"

/-- No more than the three levels are ever used, and the statements between the errors are kept. -/
theorem Parsed.ofStream_of_limit_le_malformed :
    3 ≤ 128 ∧
      (∀ d ∈ (ofStream 3 (.ofText shallowErrors)).diagnostics, ∀ limit, d.cause ≠ .nestingTooDeep limit) ∧
      (ofStream 128 (.ofText shallowErrors)).program.map Statement.token =
        [⟨.ifWord, "if", ⟨1, 1⟩⟩, ⟨.identifier, "e", ⟨1, 36⟩⟩] ∧
      (ofStream 128 (.ofText shallowErrors)).diagnostics =
        [⟨.unexpected .rightParen .semicolon, ⟨1, 16⟩⟩, ⟨.unexpected .identifier .integer, ⟨1, 22⟩⟩,
          ⟨.unexpected .semicolon .illegal, ⟨1, 33⟩⟩, ⟨.illegalCharacter "#", ⟨1, 33⟩⟩] := by
  have le : 3 ≤ 128 := by decide
  have reported : (ofStream 3 (.ofText shallowErrors)).diagnostics =
      [⟨.unexpected .rightParen .semicolon, ⟨1, 16⟩⟩, ⟨.unexpected .identifier .integer, ⟨1, 22⟩⟩,
        ⟨.unexpected .semicolon .illegal, ⟨1, 33⟩⟩, ⟨.illegalCharacter "#", ⟨1, 33⟩⟩] := by decide +kernel
  have shallow : ∀ d ∈ (ofStream 3 (.ofText shallowErrors)).diagnostics,
      ∀ limit, d.cause ≠ .nestingTooDeep limit := by
    rw [reported]
    simp
  obtain ⟨program, diagnostics⟩ := ofStream_of_limit_le le shallowErrors shallow
  rw [program, diagnostics]
  exact ⟨le, shallow, by decide +kernel, reported⟩

end LittleScript

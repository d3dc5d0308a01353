import LittleScript.Numeral
import LittleScript.Proofs.Run.Visits

/-!
The operands that a run has looked for, as its journal tells, and the reports about numbers among them. A journal
accounts for its numbers if it has one such report for each operand that is a number and does not fit, in their
order, and no other.
-/

namespace LittleScript

/-- The token on which an operand is looked for, if an entry begins an expression and the next one gives it a
level. -/
def Event.operand? : Event → Event → Option Token
  | .expressionBegun token _, .levelTaken => some token
  | _, _ => none

/-- Only an expression that has just begun waits for its level. -/
private theorem Event.operand?_eq_none {entry : Event} (other : entry.operand? .levelTaken = none) (next : Event) :
    entry.operand? next = none := by
  cases entry with
  | expressionBegun token precedence => cases other
  | _ => rfl

def Token.overflows (token : Token) : Bool :=
  token.kind = .integer && (Numeral.read? token.literal).isNone

def Token.number? (token : Token) : Option (Token × Int) :=
  if token.kind = .integer then (Numeral.read? token.literal).map fun value : Nat => (token, value) else none

def Token.overflow (token : Token) : Diagnostic := ⟨.integerTooLarge token.literal, token.location⟩

def Diagnostic.ofNumber (d : Diagnostic) : Bool :=
  match d.cause with
  | .integerTooLarge _ => true
  | .unexpected _ _ | .noExpression _ | .illegalCharacter _ | .unterminatedBlock _ | .nestingTooDeep _ => false

/-- An end mark is no number. -/
theorem filter_overflows_properTokens (tokens : List Token) :
    (properTokens tokens).filter Token.overflows = tokens.filter Token.overflows := by
  rw [properTokens, List.filter_filter]
  apply List.filter_congr
  intro token _
  cases kind : token.kind <;> simp [Token.overflows, kind]

namespace Journal

def operandsIn : List Event → List Token
  | [] => []
  | event :: earlier => operandsIn earlier ++ (earlier.head?.bind (·.operand? event)).toList

def operands (journal : Journal) : List Token := operandsIn journal.latestFirst

private theorem operands_record (journal : Journal) (event : Event) :
    (journal.record event).operands =
      journal.operands ++ (journal.latestFirst.head?.bind (·.operand? event)).toList := rfl

def numbers (journal : Journal) : List (Token × Int) := journal.operands.filterMap Token.number?

def Settled (journal : Journal) : Prop :=
  ∀ entry ∈ journal.latestFirst.head?, entry.operand? .levelTaken = none

/-- Where no expression waits for its level, the next entry brings no operand. -/
private theorem Settled.operands_record {journal : Journal} (settled : journal.Settled) (event : Event) :
    (journal.record event).operands = journal.operands := by
  have none : journal.latestFirst.head?.bind (·.operand? event) = none := by
    rw [Option.bind_eq_none_iff]
    exact fun entry last => Event.operand?_eq_none (settled entry last) event
  rw [Journal.operands_record, none, Option.toList_none, List.append_nil]

theorem Settled.numbers_record {journal : Journal} (settled : journal.Settled) (event : Event) :
    (journal.record event).numbers = journal.numbers :=
  congrArg (List.filterMap Token.number?) (settled.operands_record event)

def numberReports (journal : Journal) : List Diagnostic := journal.diagnostics.filter Diagnostic.ofNumber

/-- Other entries are not heard. -/
private theorem numberReports_record {event : Event} (journal : Journal)
    (other : event.diagnostic?.any Diagnostic.ofNumber = false) :
    (journal.record event).numberReports = journal.numberReports := by
  rw [numberReports, diagnostics_record, List.filter_append, numberReports]
  cases said : event.diagnostic? with
  | none => exact List.append_nil _
  | some d =>
    rw [said, Option.any_some] at other
    rw [Option.toList_some, List.filter_cons_of_neg (Bool.eq_false_iff.1 other), List.filter_nil, List.append_nil]

/-- There is one report for each operand that is too large, in their order. The operands are among the tokens that
the run has moved to. -/
structure Accounts (journal : Journal) : Prop where
  reports : journal.numberReports = (journal.operands.filter Token.overflows).map Token.overflow
  visited : journal.operands.Sublist journal.moves
  settled : journal.Settled

structure Awaits (journal : Journal) (token : Token) : Prop where
  reports : ∃ before, journal.operands = before ++ [token] ∧
    journal.numberReports = (before.filter Token.overflows).map Token.overflow
  visited : journal.operands.Sublist journal.moves
  settled : journal.Settled

theorem accounts_empty : empty.Accounts := ⟨rfl, .refl _, fun _ none => nomatch none⟩

section
variable {journal : Journal} {event : Event} {token : Token} {precedence : Precedence} {d : Diagnostic}

private theorem moves_sublist (journal : Journal) (event : Event) :
    journal.moves.Sublist (journal.record event).moves := by
  rw [moves_record]
  exact List.sublist_append_left _ _

/-- Most entries neither bring an operand nor report a number. -/
theorem Accounts.record (h : journal.Accounts) (begins : event.operand? .levelTaken = none)
    (other : event.diagnostic?.any Diagnostic.ofNumber = false) : (journal.record event).Accounts where
  reports := by rw [numberReports_record journal other, h.settled.operands_record, h.reports]
  visited := by
    rw [h.settled.operands_record]
    exact h.visited.trans (journal.moves_sublist event)
  settled := fun _ last => Option.some.inj last ▸ begins

/-- An expression that is refused its level brings no operand. -/
theorem Accounts.refused (h : journal.Accounts) (other : d.ofNumber = false) :
    ((journal.record (.expressionBegun token precedence)).record (.diagnosed d)).Accounts where
  reports := by
    rw [@numberReports_record (.diagnosed d) _ other, numberReports_record _ rfl, h.reports,
      Journal.operands_record, h.settled.operands_record]
    exact congrArg (fun list => (List.filter Token.overflows list).map Token.overflow) (List.append_nil _).symm
  visited := by
    rw [Journal.operands_record, h.settled.operands_record, moves_record, moves_record]
    simpa [Event.operand?, Event.moved?] using h.visited
  settled := fun _ last => Option.some.inj last ▸ rfl

abbrev sought (journal : Journal) (token : Token) (precedence : Precedence) : Journal :=
  ((journal.record (.moved token)).record (.expressionBegun token precedence)).record .levelTaken

/-- An operand is looked for on this token. -/
private theorem Settled.operands_sought (h : journal.Settled) (token : Token) (precedence : Precedence) :
    (journal.sought token precedence).operands =
      journal.operands ++ [token] := by
  have moved : (journal.record (.moved token)).Settled := fun _ last => Option.some.inj last ▸ rfl
  rw [Journal.operands_record, moved.operands_record, h.operands_record]
  rfl

theorem Settled.numbers_sought (h : journal.Settled) (token : Token) (precedence : Precedence) :
    (journal.sought token precedence).numbers =
      journal.numbers ++ token.number?.toList := by
  rw [numbers, h.operands_sought token precedence, List.filterMap_append, numbers]
  cases found : token.number? <;> simp [found]

/-- It has to be read next. -/
theorem Accounts.awaits (h : journal.Accounts) :
    (journal.sought token precedence).Awaits token := by
  have moved : (journal.record (.moved token)).Accounts := h.record rfl rfl
  have operands := h.settled.operands_sought token precedence
  refine ⟨⟨journal.operands, operands, ?_⟩, ?_, fun _ last => Option.some.inj last ▸ rfl⟩
  · rw [numberReports_record _ rfl, numberReports_record _ rfl, moved.reports, h.settled.operands_record]
  · rw [operands, moves_record, moves_record, moves_record]
    simpa [Event.moved?] using h.visited.append (List.Sublist.refl [token])

/-- An operand that is not too large needs no report. -/
theorem Awaits.accounts (h : journal.Awaits token) (fits : token.overflows = false) : journal.Accounts := by
  obtain ⟨⟨before, operands, reports⟩, visited, settled⟩ := h
  refine ⟨?_, visited, settled⟩
  rw [reports, operands, List.filter_append, List.filter_cons_of_neg (by rw [fits]; exact Bool.false_ne_true),
    List.filter_nil, List.append_nil]

/-- An operand that is too large is reported. -/
theorem Awaits.reported (h : journal.Awaits token) (large : token.overflows = true) :
    (journal.record (.diagnosed token.overflow)).Accounts := by
  obtain ⟨⟨before, operands, reports⟩, visited, settled⟩ := h
  refine ⟨?_, ?_, fun _ last => Option.some.inj last ▸ rfl⟩
  · have added : (journal.record (.diagnosed token.overflow)).numberReports =
        journal.numberReports ++ [token.overflow] := by
      rw [numberReports, diagnostics_record, List.filter_append]
      rfl
    rw [added, reports, settled.operands_record, operands, List.filter_append, List.filter_cons_of_pos large,
      List.filter_nil, List.map_append, List.map_singleton]
  · rw [settled.operands_record]
    exact visited.trans (journal.moves_sublist _)

end

end Journal
end LittleScript

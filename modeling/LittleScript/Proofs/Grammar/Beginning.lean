import LittleScript.Proofs.Grammar.Basic
import LittleScript.Rule.Statement

/-!
How the tokens of a phrase begin, and what becomes of a token that begins nothing.
-/

namespace LittleScript.Grammar

open Run Rule

def beginnings : List Kind := [.letWord, .returnWord, .fnWord, .ifWord, .identifier]

def operandBeginnings : List Kind :=
  [.identifier, .integer, .bang, .minus, .trueWord, .falseWord, .leftParen, .fnWord]

def Begins : Phrase → List Token → Prop
  | .expression .., tokens | .whole _, tokens => tokens ≠ [] ∧ headKind tokens ≠ .rightParen
  | .arguments trees, tokens => trees ≠ [] → tokens ≠ [] ∧ headKind tokens ≠ .rightParen
  | .function .., tokens => tokens ≠ [] ∧ headKind tokens = .fnWord
  | .statement _, tokens => tokens ≠ [] ∧ headKind tokens ∈ beginnings
  | .block _, _ | .alternative _, _ | .statements .., _ => True

theorem begins_of_kind {token : Token} {rest : List Token} {kind : Kind} (h : token.kind = kind)
    (other : kind ≠ .rightParen) : token :: rest ≠ [] ∧ headKind (token :: rest) ≠ .rightParen := by
  refine ⟨List.cons_ne_nil _ _, ?_⟩
  rw [headKind_cons, h]
  exact other

theorem beginsStatement_of_kind {token : Token} {rest : List Token} {kind : Kind} (h : token.kind = kind)
    (begins : kind ∈ beginnings) : token :: rest ≠ [] ∧ headKind (token :: rest) ∈ beginnings := by
  refine ⟨List.cons_ne_nil _ _, ?_⟩
  rw [headKind_cons, h]
  exact begins

/-- Tokens behind a proper beginning do not change it. -/
theorem begins_append {front : List Token} {P : Kind → Prop} (h : front ≠ [] ∧ P (headKind front))
    (back : List Token) : front ++ back ≠ [] ∧ P (headKind (front ++ back)) := by
  rw [headKind_append h.1]
  exact ⟨fun none => h.1 (List.append_eq_nil_iff.1 none).1, h.2⟩

theorem Derives.begins {phrase : Phrase} {tokens : List Token} {peak : Nat}
    (h : Derives phrase tokens peak) : Begins phrase tokens := by
  induction h with
  | name kind => exact begins_of_kind kind (by decide)
  | integer kind _ => exact begins_of_kind kind (by decide)
  | boolean value kind => exact begins_of_kind kind (by cases value <;> decide)
  | group opens _ _ _ => exact begins_of_kind opens (by decide)
  | literal _ ih => exact ⟨ih.1, by rw [ih.2]; decide⟩
  | call _ _ _ _ left _ => exact begins_append (P := (· ≠ .rightParen)) left _
  | @unary _ operator _ _ _ _ kind _ _ => exact begins_of_kind kind (by cases operator <;> decide)
  | binary _ _ _ _ first _ => exact begins_append (P := (· ≠ .rightParen)) first _
  | lift _ ih => exact ih
  | whole _ ih => exact ih
  | noArguments => exact fun proper => absurd rfl proper
  | lastArgument _ ih => exact fun _ => ih
  | moreArguments _ _ _ _ first _ => exact fun _ => begins_append (P := (· ≠ .rightParen)) first _
  | function word => exact ⟨List.cons_ne_nil _ _, word⟩
  | block => trivial
  | noAlternative => trivial
  | otherwise => trivial
  | binding kind => exact beginsStatement_of_kind kind (by decide)
  | answer kind => exact beginsStatement_of_kind kind (by decide)
  | assignment kind => exact beginsStatement_of_kind kind (by decide)
  | conditional kind => exact beginsStatement_of_kind kind (by decide)
  | procedure _ ih => exact ⟨ih.1, by rw [ih.2]; decide⟩
  | stopped _ _ ih =>
    exact begins_append (P := (· ∈ beginnings)) ⟨ih.1, by rw [ih.2]; decide⟩ _
  | noStatements => trivial
  | stray => trivial
  | statement => trivial

def BeginsOperand : Phrase → List Token → Prop
  | .expression .., tokens | .whole _, tokens => headKind tokens ∈ operandBeginnings
  | _, _ => True

private theorem beginsOperand_of_kind {token : Token} {kind : Kind} (h : token.kind = kind)
    (begins : kind ∈ operandBeginnings) (rest : List Token) :
    headKind (token :: rest) ∈ operandBeginnings := by
  rw [headKind_cons, h]
  exact begins

/-- Nothing but an operand begins an expression. -/
theorem Derives.beginsOperand {phrase : Phrase} {tokens : List Token} {peak : Nat}
    (h : Derives phrase tokens peak) : BeginsOperand phrase tokens := by
  induction h with
  | name kind => exact beginsOperand_of_kind kind (by decide) _
  | integer kind _ => exact beginsOperand_of_kind kind (by decide) _
  | boolean value kind => exact beginsOperand_of_kind kind (by cases value <;> decide) _
  | group opens _ _ _ => exact beginsOperand_of_kind opens (by decide) _
  | literal function _ =>
    have word := function.begins.2
    rw [BeginsOperand, word]
    decide
  | call _ left _ _ first _ =>
    rw [BeginsOperand, headKind_append left.begins.1]
    exact first
  | @unary _ operator _ _ _ _ kind _ _ =>
    exact beginsOperand_of_kind kind (by cases operator <;> decide) _
  | binary _ _ left _ first _ =>
    rw [BeginsOperand, headKind_append left.begins.1]
    exact first
  | lift _ ih => exact ih
  | whole _ ih => exact ih
  | _ => trivial

/-- A stray token is left out without a word. -/
theorem run_statement_stray {inBlock : Bool} (inner : Inner) {s : State}
    (stray : s.current.kind.Stray inBlock) :
    ∃ t, (statement inner).run s = (none, t) ∧ s.Quiet t ∧ t.ahead = s.ahead := by
  have skips : statementOn inner s.current = skip := by
    have other := stray.1
    unfold statementOn
    split
    all_goals first | rfl | (rename_i kind; rw [kind] at other; exact absurd other (by decide))
  let begun := s.record (.statementBegun s.current s.peek)
  have run : (statement inner).run s =
      ((statementOn inner s.current).andRecord fun built => .statementEnded s.current built.isSome).run
        begun := rfl
  refine ⟨begun.record (.statementEnded s.current false), ?_, ?_, rfl⟩
  · rw [run, skips]
    rfl
  · exact (s.quiet_record _ rfl).trans (begun.quiet_record _ rfl)

end LittleScript.Grammar

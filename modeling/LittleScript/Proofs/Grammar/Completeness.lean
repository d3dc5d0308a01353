import LittleScript.Parsed
import LittleScript.Proofs.Grammar.Completeness.Expression
import LittleScript.Proofs.Grammar.Completeness.Statement

/-!
Whatever the grammar derives is read.
-/

namespace LittleScript.Grammar

open Run Rule

/-- Every phrase is read as the grammar derives it. -/
theorem Derives.completes {phrase : Phrase} {tokens : List Token} {peak : Nat}
    (h : Derives phrase tokens peak) : Completes phrase tokens peak := by
  induction h with
  | name kind => exact completes_name kind
  | integer kind fits => exact completes_integer kind fits
  | boolean value kind => exact completes_boolean value kind
  | group opens _ closes inside => exact completes_group opens inside closes
  | literal _ function => exact completes_literal function
  | call opens _ right closes left arguments =>
    exact completes_call opens left right.begins arguments closes
  | unary kind _ right => exact completes_unary kind right
  | binary kind own _ _ first second => exact completes_binary kind own first second
  | lift _ above => exact completes_lift above
  | whole _ chain => exact completes_whole chain
  | noArguments => exact ⟨rfl, rfl⟩
  | lastArgument _ argument => exact completes_lastArgument argument
  | moreArguments _ commas _ proper first rest =>
    exact completes_moreArguments first commas rest proper
  | function word opens named closes _ block => exact completes_function word opens named closes block
  | block opens _ closes inside => exact completes_block opens inside closes
  | noAlternative => exact completes_noAlternative
  | otherwise word _ block => exact completes_otherwise word block
  | binding kind named assigns _ stops right => exact completes_binding kind named assigns right stops
  | answer kind _ stops right => exact completes_answer kind right stops
  | assignment named assigns _ stops right => exact completes_assignment named assigns right stops
  | conditional kind opens _ closes _ _ test block other =>
    exact completes_conditional kind opens test closes block other
  | procedure _ function => exact completes_procedure function
  | stopped _ stops function => exact completes_stopped function stops
  | noStatements => exact completes_noStatements
  | stray skipped _ rest => exact completes_stray skipped rest
  | statement first _ complete tree rest => exact completes_statements first.begins tree rest complete

/-- The statements of a program are kept in silence. -/
theorem readsLikeStatement_top (limit : Nat) :
    ReadsLikeStatement limit limit (topStatement limit) where
  reads {s tree peak goal} h := by
    apply h.andThen
    intro t _ reached
    apply Reads.step (run_record _ t) (t.quiet_record _ rfl)
    exact .done reached
  skips {s t} h := by
    change next _ ((statement (within limit limit)).run s) = _
    rw [h, next_none]

/-- A derivation of a program with levels enough is what is parsed, without a diagnostic; if it needs
more levels, the limit is reported. -/
theorem ofStream_of_derives {limit peak : Nat} {stream : TokenStream} {program : Program}
    (h : Derives (.statements false program) stream.tokens peak) :
    (peak ≤ limit → (Parsed.ofStream limit stream).program = program ∧
      (Parsed.ofStream limit stream).diagnostics = []) ∧
    (limit < peak → ∃ d ∈ (Parsed.ofStream limit stream).diagnostics,
      d.cause = .nestingTooDeep limit) := by
  let start := State.start stream .empty
  have collects := h.completes limit limit (topStatement limit) (fun _ => false) [] start stream.tokens []
    (readsLikeStatement_top limit) (fun _ => rfl) (.inl rfl) (.inl rfl) (List.append_nil _).symm
    (Nat.zero_add limit)
  have parsed : Parsed.ofStream limit stream =
      ⟨(start.finishProgram limit).1, (start.finishProgram limit).2.journal⟩ := rfl
  refine ⟨fun le => ?_, fun lt => ?_⟩
  · obtain ⟨t, collected, quiet, -⟩ := collects.fits le
    have same : start.finishProgram limit = (program, t) := collected
    rw [parsed, same]
    exact ⟨rfl, quiet.silent⟩
  · obtain ⟨added, all, d, mem, cause⟩ := collects.exceeds lt
    have listed : (Parsed.ofStream limit stream).diagnostics = start.journal.diagnostics ++ added := all
    refine ⟨d, ?_, cause⟩
    rw [listed]
    exact List.mem_append_right _ mem

end LittleScript.Grammar

import LittleScript.Proofs.Grammar.Completeness
import LittleScript.Proofs.Grammar.Soundness.Statement

/-!
Whatever is read in silence is derived by the grammar. Together with completeness, a text is accepted
exactly if it is a program of the grammar.
-/

namespace LittleScript.Grammar

open Run Rule

private theorem sound_zero (limit : Nat) : Sound limit 0 where
  expression precedence s _ _ := by
    intro silent
    rw [run_expression_zero] at silent
    have heard := (s.quiet_record (.expressionBegun s.current precedence) rfl).silent
    exact absurd (Eq.trans silent (Eq.symm heard)) (State.not_silent_diagnosed _ _)
  block s _ _ := by
    intro silent
    rw [run_block_zero] at silent
    exact absurd silent (State.not_silent_diagnosed _ _)

/-- The nested rules read phrases, however many levels they may open. -/
private theorem sound (limit levels : Nat) : Sound limit levels ∧ SoundLinks limit levels := by
  induction levels with
  | zero => exact ⟨sound_zero limit, soundLinks_zero⟩
  | succ levels ih =>
    obtain ⟨inner, links⟩ := ih
    refine ⟨⟨?_, ?_⟩, soundLinks_succ inner links⟩
    · exact fun precedence s used base => sound_expression inner links used base
    · exact fun s opens base => sound_block inner opens base

private theorem ensures_topStatement (limit : Nat) : EnsuresStatement limit limit (topStatement limit) := by
  intro s proper base silent
  have inner := ensures_statement (sound limit limit).1 s proper base
  have parts := State.Silent.split ((statement (within limit limit)).leads s) (leads_next _ _ s) silent
  rw [run_topStatement]
  obtain ⟨tree, t, built, derived⟩ | ⟨t, skipped, rest⟩ := inner parts.1
  · left
    refine ⟨tree, t.record (.kept tree), ?_, derived⟩
    rw [built]
    rfl
  · right
    refine ⟨t, ?_, rest⟩
    rw [skipped]
    rfl

/-- What is parsed without a diagnostic is a program of the grammar. -/
theorem sentence_of_silent {limit : Nat} {stream : TokenStream}
    (h : (Parsed.ofStream limit stream).diagnostics = []) :
    Sentence limit stream.tokens (Parsed.ofStream limit stream).program := by
  let start := State.start stream .empty
  have parsed : Parsed.ofStream limit stream =
      ⟨(start.finishProgram limit).1, (start.finishProgram limit).2.journal⟩ := rfl
  rw [parsed] at h ⊢
  obtain ⟨trees, t, tokens, peak, same, derives, le, used, -, ended⟩ :=
    sound_sequence (ensures_topStatement limit) (fun _ => (Bool.false_and _).symm) [] start
      (Nat.zero_add limit) h
  have finished : start.finishProgram limit = (trees, t) := same
  have all : stream.tokens = tokens := by
    obtain nothing | stopped := ended
    · rw [nothing, List.append_nil] at used
      exact used
    · cases stopped
  rw [finished, all]
  exact ⟨peak, le, derives⟩

/-- A text is parsed without a diagnostic exactly if its tokens are a program of the grammar that needs
no more levels than there are, and then the program that is parsed is the one of the derivation. -/
theorem parse_exact (text : String) :
    ((parse text).diagnostics = [] ↔
      ∃ program, Sentence levelLimit (TokenStream.ofText text).tokens program) ∧
    ∀ program, Sentence levelLimit (TokenStream.ofText text).tokens program →
      (parse text).program = program := by
  refine ⟨⟨fun silent => ⟨_, sentence_of_silent silent⟩, ?_⟩, ?_⟩
  · rintro ⟨program, peak, le, derives⟩
    exact ((ofStream_of_derives derives).1 le).2
  · rintro program ⟨peak, le, derives⟩
    exact ((ofStream_of_derives derives).1 le).1

/-- A parenthesis that belongs to nothing is passed over. -/
theorem parse_exact_stray :
    (parse ") x = 1;").diagnostics = [] ∧
    (parse ") x = 1;").program = [.assignment ⟨.identifier, "x", ⟨1, 3⟩⟩
      ⟨⟨.identifier, "x", ⟨1, 3⟩⟩, "x"⟩ (.integer ⟨.integer, "1", ⟨1, 7⟩⟩ 1)] := by
  have tokens : (TokenStream.ofText ") x = 1;").tokens =
      [⟨.rightParen, ")", ⟨1, 1⟩⟩, ⟨.identifier, "x", ⟨1, 3⟩⟩, ⟨.assign, "=", ⟨1, 5⟩⟩,
        ⟨.integer, "1", ⟨1, 7⟩⟩, ⟨.semicolon, ";", ⟨1, 8⟩⟩] := by decide +kernel
  have one : Derives (.expression .equality (.integer ⟨.integer, "1", ⟨1, 7⟩⟩ 1) 0)
      [⟨.integer, "1", ⟨1, 7⟩⟩] 0 :=
    Derives.lower (.integer rfl (by decide)) (by decide)
  have sentence : Sentence levelLimit (TokenStream.ofText ") x = 1;").tokens
      [.assignment ⟨.identifier, "x", ⟨1, 3⟩⟩ ⟨⟨.identifier, "x", ⟨1, 3⟩⟩, "x"⟩
        (.integer ⟨.integer, "1", ⟨1, 7⟩⟩ 1)] := by
    rw [tokens]
    refine ⟨1, by decide, .stray ⟨by decide, by decide⟩ ?_⟩
    exact .statement (.assignment rfl rfl (.whole one) rfl) .noStatements (by decide)
  exact ⟨(parse_exact ") x = 1;").1.2 ⟨_, sentence⟩, (parse_exact ") x = 1;").2 _ sentence⟩

end LittleScript.Grammar

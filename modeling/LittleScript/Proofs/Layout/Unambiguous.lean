import LittleScript.Proofs.Layout.Determined
import LittleScript.Parsed
import LittleScript.Proofs.Layout.Writable

/-!
The canonical layout is uniquely readable, however deep the tree is: programs with the same canonical text
are the same program.
-/

namespace LittleScript

namespace Layout

section
variable {rest others : List (Kind × String)}

/-- Statements with the same words in front begin with the same kind of word. -/
private theorem opening_eq_statement {s t : Statement} (own : s.Faithful) (faithful : t.Faithful)
    (same : words (statement s) ++ rest = words (statement t) ++ others) : s.opening = t.opening := by
  have first := firstKind_statement s own rest
  rw [same, firstKind_statement t faithful others] at first
  exact (Option.some.inj first).symm

/-- Behind statements there is no other one. -/
private theorem not_ended_of_statement (s : Statement) (own : s.Faithful) :
    firstKind (words (statement s) ++ rest) ∉ [none, some .rightBrace] := by
  rw [firstKind_statement s own]
  cases s <;> simp [Statement.opening]

/-- Behind a statement there is another one or the end of them all. -/
private theorem not_else_spaced {body : List Statement} (own : Statement.AllFaithful body)
    (ended : firstKind rest ∈ [none, some .rightBrace]) :
    firstKind (words (spaced body) ++ rest) ≠ some .elseWord := by
  cases body with
  | nil =>
    rw [spaced, words_nil, List.nil_append]
    intro same
    rw [same] at ended
    exact absurd ended (by decide)
  | cons s body =>
    rw [words_spaced_cons, List.append_assoc, firstKind_statement s own.1]
    cases s <;> simp [Statement.opening]

/-- A value in front of a semicolon. -/
private theorem value_determined {value value' : Expression} (told : ExpressionDetermined value)
    (faithful : value'.Faithful)
    (same : words (expression value) ++ (.semicolon, Kind.semicolon.symbol) :: rest =
      words (expression value') ++ (.semicolon, Kind.semicolon.symbol) :: others) :
    value.alike value' = true ∧ rest = others := by
  have ends : ∀ behind, firstKind ((.semicolon, Kind.semicolon.symbol) :: behind) ≠ some .leftParen := by
    intro behind
    rw [firstKind_cons]
    decide
  obtain ⟨alike, behind⟩ := told value' faithful _ _ (ends rest) (ends others) same
  exact ⟨alike, (List.cons.inj behind).2⟩

private theorem binding_determined {token : Token} {name : Name} {value : Expression}
    (own : (Statement.binding token name value).Faithful) (told : ExpressionDetermined value) :
    StatementDetermined (.binding token name value) := by
  intro b faithful rest others _ _ same
  have opening : .letWord = b.opening := opening_eq_statement own faithful same
  cases b with
  | binding token' name' value' =>
    simp only [statement, List.cons_append, List.nil_append, List.append_assoc, words_spelled, words_gap,
      words_named, words_sign, words_append, words_nil, List.cons.injEq, Prod.mk.injEq, true_and] at same
    obtain ⟨keyword, text, same⟩ := same
    obtain ⟨alike, ended⟩ := value_determined told faithful.2.2 same
    have sameName := Name.alike_of_text own.2.1 faithful.2.1 text
    refine ⟨?_, ended⟩
    simp only [Statement.alike, Token.alike_of_spelling keyword, sameName, alike, Bool.and_true]
  | _ => cases opening

private theorem answer_determined {token : Token} {value : Expression}
    (own : (Statement.answer token value).Faithful) (told : ExpressionDetermined value) :
    StatementDetermined (.answer token value) := by
  intro b faithful rest others _ _ same
  have opening : .returnWord = b.opening := opening_eq_statement own faithful same
  cases b with
  | answer token' value' =>
    simp only [statement, List.cons_append, List.nil_append, List.append_assoc, words_spelled, words_gap,
      words_append, List.cons.injEq] at same
    obtain ⟨keyword, same⟩ := same
    obtain ⟨alike, ended⟩ := value_determined told faithful.2 same
    refine ⟨?_, ended⟩
    simp only [Statement.alike, Token.alike_of_spelling keyword, alike, Bool.and_true]
  | _ => cases opening

private theorem assignment_determined {token : Token} {name : Name} {value : Expression}
    (own : (Statement.assignment token name value).Faithful) (told : ExpressionDetermined value) :
    StatementDetermined (.assignment token name value) := by
  intro b faithful rest others _ _ same
  have opening : .identifier = b.opening := opening_eq_statement own faithful same
  cases b with
  | assignment token' name' value' =>
    simp only [statement, List.cons_append, List.nil_append, List.append_assoc, words_gap, words_named,
      words_sign, words_append, words_nil, List.cons.injEq, Prod.mk.injEq, true_and] at same
    obtain ⟨text, same⟩ := same
    obtain ⟨alike, ended⟩ := value_determined told faithful.2.2 same
    have sameName := Name.alike_of_text own.2.1 faithful.2.1 text
    have spelled : token.spelling = token'.spelling := by
      rw [own.1, own.2.1, faithful.1, faithful.2.1, text]
    refine ⟨?_, ended⟩
    simp only [Statement.alike, Token.alike_of_spelling spelled, sameName, alike, Bool.and_true]
  | _ => cases opening

private theorem conditional_determined {token : Token} {guard : Expression} {consequence : Block}
    {other : Option Block} (own : (Statement.conditional token guard consequence other).Faithful)
    (test : InsideDetermined guard) (first : BlockDetermined consequence)
    (second : AlternativeDetermined other) :
    StatementDetermined (.conditional token guard consequence other) := by
  intro b faithful rest others ends ends' same
  have opening : .ifWord = b.opening := opening_eq_statement own faithful same
  cases b with
  | conditional token' guard' consequence' other' =>
    simp only [statement, condition_eq_inside, List.cons_append, List.nil_append, List.append_assoc, words_gap,
      words_sign, words_append, List.cons.injEq, true_and] at same
    obtain ⟨alike, behind⟩ := test guard' faithful.2.1 _ _ rfl rfl same
    obtain ⟨alikeFirst, behind⟩ :=
      first consequence' faithful.2.2.1 _ _ trivial trivial (List.cons.inj behind).2
    obtain ⟨alikeSecond, ended⟩ := second other' faithful.2.2.2 _ _ ends ends' behind
    have sameToken := Token.alike_of_spelling (Eq.trans own.1 (Eq.symm faithful.1))
    refine ⟨?_, ended⟩
    simp only [Statement.alike, sameToken, alike, alikeFirst, alikeSecond, Bool.and_true]
  | _ => cases opening

private theorem function_statement_determined {token : Token} {parameters : List Name} {body : Block}
    (own : (Statement.function token parameters body).Faithful) (told : BlockDetermined body) :
    StatementDetermined (.function token parameters body) := by
  intro b faithful rest others _ _ same
  have opening : .fnWord = b.opening := opening_eq_statement own faithful same
  cases b with
  | function token' parameters' body' =>
    rw [statement, statement] at same
    obtain ⟨sameToken, names, alike, ended⟩ :=
      function_determined own.2.1 faithful.2.1 told faithful.2.2 same
    refine ⟨?_, ended⟩
    simp only [Statement.alike, sameToken, names, alike, Bool.and_true]
  | _ => cases opening

private theorem block_determined {token : Token} {body : List Statement} (own : (Block.braced token body).Faithful)
    (told : StatementsDetermined body) : BlockDetermined (.braced token body) := by
  intro b faithful rest others _ _ same
  obtain ⟨token', body'⟩ := b
  simp only [block, List.cons_append, List.nil_append, List.append_assoc, words_gap, words_sign, words_append,
    words_nil, List.cons.injEq, true_and] at same
  have ends : ∀ behind, firstKind ((.rightBrace, Kind.rightBrace.symbol) :: behind) ∈ [none, some .rightBrace] := by
    intro behind
    rw [firstKind_cons]
    decide
  obtain ⟨alike, behind⟩ := told body' faithful.2 _ _ (ends rest) (ends others) same
  have sameToken := Token.alike_of_spelling (Eq.trans own.1 (Eq.symm faithful.1))
  refine ⟨?_, (List.cons.inj behind).2⟩
  simp only [Block.alike, sameToken, alike, Bool.and_true]

private theorem alternative_determined {other : Option Block} (told : ∀ b ∈ other, BlockDetermined b) :
    AlternativeDetermined other := by
  intro b faithful rest others ends ends' same
  cases other with
  | none =>
    cases b with
    | none => exact ⟨by simp only [Block.bothAlike], same⟩
    | some b =>
      rw [alternative, alternative, words_nil, List.nil_append] at same
      rw [same] at ends
      exact absurd rfl ends
  | some own =>
    cases b with
    | none =>
      rw [alternative, alternative, words_nil, List.nil_append] at same
      rw [← same] at ends'
      exact absurd rfl ends'
    | some b =>
      rw [alternative, alternative] at same
      obtain ⟨alike, ended⟩ := told own rfl b faithful _ _ trivial trivial (List.cons.inj same).2
      refine ⟨?_, ended⟩
      simp only [Block.bothAlike, alike]

private theorem statements_determined {body : List Statement} (own : Statement.AllFaithful body)
    (told : ∀ s ∈ body, StatementDetermined s) : StatementsDetermined body := by
  induction body with
  | nil =>
    intro b faithful rest others ends _ same
    cases b with
    | nil => exact ⟨by simp only [Statement.allAlike], same⟩
    | cons t body' =>
      rw [words_spaced_cons, List.append_assoc, spaced, words_nil, List.nil_append] at same
      rw [same] at ends
      exact absurd ends (not_ended_of_statement t faithful.1)
  | cons s body ih =>
    intro b faithful rest others ends ends' same
    cases b with
    | nil =>
      rw [words_spaced_cons, List.append_assoc, spaced, words_nil, List.nil_append] at same
      rw [← same] at ends'
      exact absurd ends' (not_ended_of_statement s own.1)
    | cons t body' =>
      obtain ⟨first, later⟩ := List.forall_mem_cons.1 told
      rw [words_spaced_cons, words_spaced_cons, List.append_assoc, List.append_assoc] at same
      obtain ⟨alike, behind⟩ :=
        first t faithful.1 _ _ (not_else_spaced own.2 ends) (not_else_spaced faithful.2 ends') same
      obtain ⟨many, ended⟩ := ih own.2 later body' faithful.2 _ _ ends ends' behind
      refine ⟨?_, ended⟩
      simp only [Statement.allAlike, alike, many, Bool.and_true]

end

mutual

private theorem told_expression : (e : Expression) → e.Faithful → Told e
  | .name _, h => told_of_head rfl h (head_name h)
  | .integer _ _, h => told_of_head rfl h (head_integer h)
  | .boolean _ _, h => told_of_head rfl h (head_boolean h)
  | .unary _ _ operand, h => told_of_inside rfl h (inside_unary h (told_expression operand h.2).determined)
  | .binary _ _ left right, h =>
    told_of_inside rfl h
      (inside_binary h (told_expression left h.2.1).determined (told_expression right h.2.2).determined)
  | .call _ callee arguments, h =>
    told_call h (told_expression callee h.2.1) (arguments_determined h.2.2 (told_expressions arguments h.2.2))
  | .function _ _ body, h => told_of_head rfl h (head_function h (told_block body h.2.2))

private theorem told_expressions : (es : List Expression) → Expression.AllFaithful es → ∀ e ∈ es, Told e
  | [], _ => fun _ none => absurd none List.not_mem_nil
  | e :: es, h => List.forall_mem_cons.2 ⟨told_expression e h.1, told_expressions es h.2⟩

private theorem told_block : (b : Block) → b.Faithful → BlockDetermined b
  | .braced _ body, h => block_determined h (statements_determined h.2 (told_statements body h.2))

private theorem told_alternative :
    (other : Option Block) → Block.OptionFaithful other → ∀ b ∈ other, BlockDetermined b
  | none, _ => fun _ none => nomatch none
  | some b, h => fun _ same => by
    cases same
    exact told_block b h

private theorem told_statements :
    (body : List Statement) → Statement.AllFaithful body → ∀ s ∈ body, StatementDetermined s
  | [], _ => fun _ none => absurd none List.not_mem_nil
  | s :: rest, h => List.forall_mem_cons.2 ⟨told_statement s h.1, told_statements rest h.2⟩

private theorem told_statement : (s : Statement) → s.Faithful → StatementDetermined s
  | .binding _ _ value, h => binding_determined h (told_expression value h.2.2).determined
  | .answer _ value, h => answer_determined h (told_expression value h.2).determined
  | .assignment _ _ value, h => assignment_determined h (told_expression value h.2.2).determined
  | .conditional _ guard consequence other, h =>
    conditional_determined h (told_expression guard h.2.1).inside (told_block consequence h.2.2.1)
      (alternative_determined (told_alternative other h.2.2.2))
  | .function _ _ body, h => function_statement_determined h (told_block body h.2.2)

end

end Layout

/-- Programs with the same canonical text are the same apart from places, whatever their depth and size. -/
theorem Program.alike_of_render {p q : Program} (legible : p.Legible) (legible' : q.Legible)
    (faithful : p.Faithful) (faithful' : q.Faithful) (same : p.render = q.render) : p.alike q = true := by
  have read := TokenStream.spelling_ofText (Layout.apart_program p legible)
  have read' := TokenStream.spelling_ofText (Layout.apart_program q legible')
  have texts : Layout.text (Layout.program p) = Layout.text (Layout.program q) := same
  rw [texts, read', ← Layout.words_spaced, ← Layout.words_spaced] at read
  have told := Layout.statements_determined faithful (Layout.told_statements p faithful)
  have ended : Layout.firstKind [] ∈ [none, some .rightBrace] := by decide
  exact (told q faithful' [] [] ended ended (congrArg (· ++ []) read.symm)).1

def negations (place : Location) : Program :=
  let sign (kind : Kind) : Token := ⟨kind, kind.symbol, place⟩
  let guard : Expression := .name ⟨⟨.identifier, "ready", place⟩, "ready"⟩
  [.conditional (sign .ifWord) (Nat.repeat (.unary (sign .bang) .bang) 70 guard)
    (.braced (sign .leftBrace) []) none]

/-- The parser rejects the text of so many negations, and still it is the text of no other tree. -/
theorem alike_of_render_negations :
    levelLimit < (negations ⟨1, 1⟩).need ∧ negations ⟨1, 1⟩ ≠ negations ⟨2, 1⟩ ∧
      (negations ⟨1, 1⟩).render = (negations ⟨2, 1⟩).render ∧
      (negations ⟨1, 1⟩).alike (negations ⟨2, 1⟩) = true := by
  have writable : (negations ⟨1, 1⟩).Writable ∧ (negations ⟨2, 1⟩).Writable := by decide +kernel
  have faithful : (negations ⟨1, 1⟩).Faithful ∧ (negations ⟨2, 1⟩).Faithful := by decide +kernel
  have layout : Layout.program (negations ⟨1, 1⟩) = Layout.program (negations ⟨2, 1⟩) := by decide +kernel
  have same : (negations ⟨1, 1⟩).render = (negations ⟨2, 1⟩).render := congrArg Layout.text layout
  refine ⟨by decide +kernel, ?_, same, ?_⟩
  · intro equal
    exact absurd (congrArg (fun p => p.head?.map fun s => s.token.location) equal) (by decide)
  · exact Program.alike_of_render writable.1.legible writable.2.legible faithful.1 faithful.2 same

end LittleScript

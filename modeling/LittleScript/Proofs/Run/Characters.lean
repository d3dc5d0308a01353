import LittleScript.Proofs.Rule.Clearing.Nested

/-!
A whole run comes to each character that belongs to no token once, at a place where it reports it, however
errors and what is left out behind them follow each other.
-/

namespace LittleScript

open Run

/-- A whole run reports a character as often as it stands in its tokens, if it can tell it from them. -/
private theorem Run.State.Tracks.reports {c : Token} {s : State} (tracks : s.Tracks c) (limit : Nat) :
    (s.finishProgram limit).2.journal.diagnostics.countP (Diagnostic.concerns c) =
      s.journal.diagnostics.countP (Diagnostic.concerns c) + s.tokens.count c := by
  have whole : (s.finishProgram limit).2.due c (s.finishProgram limit).2.tokens = s.due c s.tokens :=
    Rule.Clears.sequenceFrom (Rule.clears_topStatement c limit) (fun _ => false) [] s tracks
  obtain ⟨-, ended⟩ := s.course_finishProgram limit
  rw [ended] at whole
  exact whole

/-- In a text every token can be told from the others by its place. -/
private theorem Run.State.tracks_start {text : String} {token : Token}
    (mem : token ∈ (TokenStream.ofText text).tokens)
    (illegal : token.kind = .illegal) : (State.start (.ofText text) .empty).Tracks token :=
  ⟨illegal, fun _ there => TokenStream.eq_of_location there (List.mem_append_left _ mem)⟩

/-- Every character of a text that belongs to no token is reported exactly once, as such a character or as
one that stands too deep, whatever else is reported. No other characters are reported. -/
theorem illegal_reported_once (text : String) :
    (∀ token ∈ (TokenStream.ofText text).tokens, token.kind = .illegal →
      (parse text).diagnostics.countP (Diagnostic.concerns token) = 1) ∧
    ∀ d ∈ (parse text).diagnostics, ∀ literal, d.cause = .illegalCharacter literal →
      ∃ token ∈ (TokenStream.ofText text).tokens, token.kind = .illegal ∧ d.concerns token = true := by
  refine ⟨fun token mem illegal => ?_, fun d mem literal cause => ?_⟩
  · have tracks := State.tracks_start mem illegal
    have once : (TokenStream.ofText text).tokens.count token = 1 :=
      List.count_eq_one_of_mem (TokenStream.nodup_tokens text) mem
    exact (tracks.reports levelLimit).trans ((Nat.zero_add _).trans once)
  · obtain ⟨token, left, place, describes⟩ := Parsed.truthful_ofStream levelLimit (.ofText text) d mem
    rw [cause] at describes
    cases describes with
    | illegalCharacter kind =>
      obtain proper | mark := List.mem_append.1 left
      · exact ⟨token, proper, kind, by simp [Diagnostic.concerns, cause, place]⟩
      · obtain rfl := List.mem_singleton.1 mark
        cases kind

/-- Characters between statements, as an operand behind 128 levels, in place of other tokens and in a block
that is given up. -/
def strayCharacters : String :=
  "? x = " ++ String.join (List.replicate 128 "!") ++ "#; let $ = (1 @ 2); fn() \x7b y = % "

/-- The second one stands too deep, and the third is first reported as a token that was not expected. -/
theorem illegal_reported_once_stray :
    (parse strayCharacters).diagnostics.take 4 =
      [⟨.illegalCharacter "?", ⟨1, 1⟩⟩, ⟨.nestingTooDeep 128, ⟨1, 135⟩⟩,
        ⟨.unexpected .identifier .illegal, ⟨1, 142⟩⟩, ⟨.illegalCharacter "$", ⟨1, 142⟩⟩] ∧
    ∀ token ∈ [⟨.illegal, "?", ⟨1, 1⟩⟩, ⟨.illegal, "#", ⟨1, 135⟩⟩, ⟨.illegal, "$", ⟨1, 142⟩⟩,
        ⟨.illegal, "@", ⟨1, 149⟩⟩, ⟨.illegal, "%", ⟨1, 166⟩⟩],
      (parse strayCharacters).diagnostics.countP (Diagnostic.concerns token) = 1 := by
  have read : (parse strayCharacters).diagnostics.take 4 =
        [⟨.illegalCharacter "?", ⟨1, 1⟩⟩, ⟨.nestingTooDeep 128, ⟨1, 135⟩⟩,
          ⟨.unexpected .identifier .illegal, ⟨1, 142⟩⟩, ⟨.illegalCharacter "$", ⟨1, 142⟩⟩] ∧
      (TokenStream.ofText strayCharacters).tokens.filter (·.kind = .illegal) =
        [⟨.illegal, "?", ⟨1, 1⟩⟩, ⟨.illegal, "#", ⟨1, 135⟩⟩, ⟨.illegal, "$", ⟨1, 142⟩⟩,
          ⟨.illegal, "@", ⟨1, 149⟩⟩, ⟨.illegal, "%", ⟨1, 166⟩⟩] := by decide +kernel
  refine ⟨read.1, ?_⟩
  rw [← read.2]
  intro token mem
  obtain ⟨left, illegal⟩ := List.mem_filter.1 mem
  exact (illegal_reported_once strayCharacters).1 token left (of_decide_eq_true illegal)

end LittleScript

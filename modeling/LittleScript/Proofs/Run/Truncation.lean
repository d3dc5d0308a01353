import LittleScript.Proofs.Rule.Cut.Nested
import LittleScript.Proofs.Token.Boundary

/-!
Texts that are cut off between two tokens. Of a text without errors, the front part has the first
statements, and nothing is wrong with it but where it ends.
-/

namespace LittleScript

open Run Rule

/-- The first program is the beginning of the second one, except that an `else` with its block may be
missing in its last statement. -/
inductive Program.CutOf : Program → Program → Prop where
  | initial (front back : Program) : CutOf front (front ++ back)
  | conditional (front back : Program) (token : Token) (condition : Expression) (consequence other : Block) :
      CutOf (front ++ [.conditional token condition consequence none])
        (front ++ .conditional token condition consequence (some other) :: back)

private theorem Program.CutOf.of_cropped {front whole : Program} (h : Cropped Statement.Stump front whole) :
    front.CutOf whole := by
  have complete : ∀ (front back : Program) (last : Statement),
      Program.CutOf (front ++ [last]) (front ++ last :: back) := by
    intro front back last
    rw [List.append_cons front last back]
    exact .initial _ back
  cases h with
  | whole back => exact .initial front back
  | stump back last =>
    cases last with
    | same => exact complete _ back _
    | conditional token condition consequence other =>
      cases other with
      | none => exact complete _ back _
      | some other => exact .conditional _ back token condition consequence other

/-- Where the tokens of the first run are the first ones of the second run, which reports nothing, the
first run finds the first statements, and all that it reports is its end. -/
private theorem Run.State.finishProgram_cut {more : List Token} {s t : State} (tokens : t.tokens = s.tokens ++ more)
    (depth : t.depth = s.depth) {limit : Nat} (silent : t.Silent (t.finishProgram limit).2) :
    Program.CutOf (s.finishProgram limit).1 (t.finishProgram limit).1 ∧
      s.Spent (s.finishProgram limit).2 := by
  by_cases ended : s.tokens = []
  · have stop : s.finishProgram limit = ([], s) := sequenceFrom_stops (.inl ended)
    rw [stop]
    exact ⟨.initial [] _, State.spent_refl (State.ahead_of_tokens_nil ended)⟩
  · rcases sequenceFrom_cut (cut_topStatement more limit) [] ⟨ended, tokens, depth⟩ silent with
      ⟨-, cuts, -⟩ | ⟨-, spent, cropped⟩
    · exact absurd (s.course_finishProgram limit).2 cuts.proper
    · exact ⟨.of_cropped cropped, spent⟩

/-- A text without errors that is cut off between two tokens keeps its first statements as they are, but
perhaps without the `else` of the last one, and everything that is reported is reported at the cut. -/
theorem parse_front {front back : String} (silent : (parse (front ++ back)).diagnostics = [])
    (boundary : (TokenStream.ofText (front ++ back)).Boundary (TokenStream.ofText front).finish) :
    Program.CutOf (parse front).program (parse (front ++ back)).program ∧
      ∀ d ∈ (parse front).diagnostics, d.location = (TokenStream.ofText front).finish := by
  obtain ⟨more, tokens⟩ := TokenStream.tokens_prefix boundary
  obtain ⟨cut, spent⟩ := @State.finishProgram_cut more (.start (.ofText front) .empty)
    (.start (.ofText (front ++ back)) .empty) tokens.symm rfl levelLimit silent
  obtain ⟨added, eq, late⟩ := spent.reported
  refine ⟨cut, fun d mem => late d ?_⟩
  have same : (parse front).diagnostics = added := eq
  rwa [same] at mem

/-- A cut in the arguments of a call, inside a block: nothing is left of the last statement. -/
theorem parse_front_in_call :
    (parse ("a = 1; if (b) \x7b c = f(" ++ "d); \x7d")).diagnostics = [] ∧
      (TokenStream.ofText ("a = 1; if (b) \x7b c = f(" ++ "d); \x7d")).Boundary ⟨1, 23⟩ ∧
      Program.CutOf (parse "a = 1; if (b) \x7b c = f(").program
        (parse ("a = 1; if (b) \x7b c = f(" ++ "d); \x7d")).program ∧
      (parse "a = 1; if (b) \x7b c = f(").program.length = 1 ∧
      ∀ d ∈ (parse "a = 1; if (b) \x7b c = f(").diagnostics, d.location = ⟨1, 23⟩ := by
  have finish : (TokenStream.ofText "a = 1; if (b) \x7b c = f(").finish = ⟨1, 23⟩ := by decide +kernel
  have silent : (parse ("a = 1; if (b) \x7b c = f(" ++ "d); \x7d")).diagnostics = [] := by decide +kernel
  have boundary : (TokenStream.ofText ("a = 1; if (b) \x7b c = f(" ++ "d); \x7d")).Boundary ⟨1, 23⟩ := by
    decide +kernel
  obtain ⟨cut, late⟩ := parse_front silent (by rw [finish]; exact boundary)
  rw [finish] at late
  exact ⟨silent, boundary, cut, by decide +kernel, late⟩

end LittleScript

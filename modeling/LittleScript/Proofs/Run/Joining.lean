import LittleScript.Proofs.Rule.Abreast.Nested
import LittleScript.Proofs.Rule.Follow.Nested
import LittleScript.Proofs.Token.Joining

/-!
Two texts with a line feed between them, of which the first one ends with a semicolon and has no braces.
Whatever is wrong in the first one, the second one is parsed as it is on its own.
-/

namespace LittleScript

open Run Rule

namespace Run.State

abbrev goOn (s : State) (limit : Nat) (found : List Statement) : Program × State :=
  sequenceFrom (topStatement limit) (fun _ => false) found s

/-- Where nothing more is behind, both runs find the same statements and report the same. -/
theorem goOn_beside {c : Surroundings} {s t : State} (beside : s.Beside c t) (nothing : c.behind = none)
    (limit : Nat) (earlier : List Statement) :
    (t.goOn limit earlier).1 = earlier.reverse ++ Program.relocate c.move (s.finishProgram limit).1 ∧
      (s.finishProgram limit).2.Beside c (t.goOn limit earlier).2 :=
  Abreast.sequenceFrom (fun _ _ beside => abreast_topStatement limit beside) nothing (fun _ => false) []
    earlier beside

/-- The second run comes to what is behind the tokens of the first one as the first run ends. -/
private theorem goOn_past {c : Surroundings} {rest : List Token} (more : c.behind = some rest) {s t : State}
    (beside : s.Beside c t) (limit : Nat) (found : List Statement) :
    ∃ u : State, t.goOn limit (found.map (Statement.relocate c.move)) =
        u.goOn limit (Program.relocate c.move (s.goOn limit found).1).reverse ∧
      u.tokens = rest ∧ u.finish = t.finish ∧ u.depth = (s.goOn limit found).2.depth ∧
      u.journal.diagnostics = c.earlier ++
        (s.goOn limit found).2.journal.diagnostics.map (Diagnostic.relocate c.move) := by
  have isMore : c.behind ≠ none := by
    rw [more]
    exact Option.some_ne_none rest
  unfold goOn
  fun_induction sequenceFrom (topStatement limit) (fun _ => false) found s generalizing t with
  | case1 found s ended => exact absurd ended (beside.closed isMore).ne_nil
  | case2 found s _ stopped => cases stopped
  | case3 found s proper goes ih =>
    have proper' : t.tokens ≠ [] := by
      rw [beside.tokens]
      exact fun nothing => proper (List.map_eq_nil_iff.1 (List.append_eq_nil_iff.1 nothing).1)
    have read := abreast_topStatement limit beside
    have closed := read.beside.closed isMore
    rw [sequenceFrom_step proper' rfl, read.value, Option.toList_map, ← List.map_append]
    have tokens := State.tokens_of_proper closed.ne_nil
    rw [tokens] at closed
    cases ended : ((topStatement limit).run s).2.ahead with
    | nil =>
      -- The last token of the first run is used, and the second run stands behind it.
      have stops : ∀ all, sequenceFrom (topStatement limit) (fun _ => false) all
          ((topStatement limit).run s).2.advance = (all.reverse, ((topStatement limit).run s).2.advance) :=
        fun all => sequenceFrom_stops (.inl ended)
      rw [stops]
      refine ⟨((topStatement limit).run t).2.advance, ?_, ?_, ((topStatement limit).leads t).finish,
        read.beside.depth, ?_⟩
      · rw [Program.relocate, List.map_reverse, List.reverse_reverse]
      · rw [State.tokens_advance, read.beside.tokens, tokens, ended, more]
        rfl
      · rw [State.diagnostics_advance, State.diagnostics_advance, read.beside.diagnostics]
    | cons token others =>
      have proper : ((topStatement limit).run s).2.ahead ≠ [] := by
        rw [ended]
        exact List.cons_ne_nil token others
      have goesOn := read.beside.advance_of_closed fun _ => closed.tail proper
      obtain ⟨u, same, tokens, finish, depth, diagnostics⟩ := ih goesOn
      exact ⟨u, same, tokens, finish.trans ((topStatement limit).leads t).finish, depth, diagnostics⟩

end Run.State

/-- What a run reads of two texts with a line feed between them. -/
theorem start_join (front back : String) :
    (State.start (.ofText (front ++ "\n" ++ back)) .empty).tokens =
        (TokenStream.ofText front).tokens ++
          (TokenStream.ofText back).tokens.map (Token.relocate (Location.below front)) ∧
      (State.start (.ofText (front ++ "\n" ++ back)) .empty).finish =
        (TokenStream.ofText back).finish.below front := by
  rw [TokenStream.ofText_join]
  exact ⟨rfl, rfl⟩

/-- Where a run comes to the second text, that is parsed as it is on its own. Its beginning may be missing,
as long as that adds nothing. -/
theorem parse_join {front back : String} {s t : State} {program : Program}
    (quiet : (State.start (.ofText back) .empty).Quiet s)
    (same : (State.start (.ofText back) .empty).finishProgram levelLimit = s.finishProgram levelLimit)
    (reaches : (State.start (.ofText (front ++ "\n" ++ back)) .empty).finishProgram levelLimit =
      t.goOn levelLimit program.reverse)
    (tokens : t.tokens = s.tokens.map (Token.relocate (Location.below front)))
    (finish : t.finish = (TokenStream.ofText back).finish.below front) (depth : t.depth = 0) :
    (parse (front ++ "\n" ++ back)).program =
        program ++ (parse back).program.relocate (Location.below front) ∧
      (parse (front ++ "\n" ++ back)).diagnostics =
        t.journal.diagnostics ++
          (parse back).diagnostics.map (Diagnostic.relocate (Location.below front)) := by
  let c : Surroundings := ⟨Location.below front, t.journal.diagnostics, none⟩
  have beside : s.Beside c t := by
    refine ⟨?_, fun _ => ?_, fun more => absurd rfl more, depth.trans quiet.depth.symm, ?_⟩
    · rw [tokens]
      exact (List.append_nil _).symm
    · rw [finish, quiet.finish]
      rfl
    · rw [quiet.silent]
      exact (List.append_nil _).symm
  have alone : parse back = ⟨(s.finishProgram levelLimit).1, (s.finishProgram levelLimit).2.journal⟩ := by
    rw [← same]
    rfl
  have joined : parse (front ++ "\n" ++ back) =
      ⟨(t.goOn levelLimit program.reverse).1, (t.goOn levelLimit program.reverse).2.journal⟩ := by
    rw [← reaches]
    rfl
  obtain ⟨found, reported⟩ := State.goOn_beside beside rfl levelLimit program.reverse
  rw [List.reverse_reverse] at found
  rw [joined, alone]
  exact ⟨found, reported.diagnostics⟩

/-- A semicolon outside of braces contains errors: whatever stands in front of it, what follows it is
parsed as it is on its own. -/
theorem parse_behind_semicolon (front back : String) (plain : '{' ∉ front.toList)
    (last : (TokenStream.ofText front).tokens.getLast?.map Token.kind = some .semicolon) :
    (parse (front ++ "\n" ++ back)).program =
        (parse front).program ++ (parse back).program.relocate (Location.below front) ∧
      (parse (front ++ "\n" ++ back)).diagnostics =
        (parse front).diagnostics ++
          (parse back).diagnostics.map (Diagnostic.relocate (Location.below front)) := by
  let rest := (TokenStream.ofText back).tokens.map (Token.relocate (Location.below front))
  let c : Surroundings := ⟨id, [], some rest⟩
  let first := State.start (.ofText front) .empty
  let joined := State.start (.ofText (front ++ "\n" ++ back)) .empty
  obtain ⟨tokens, finish⟩ := start_join front back
  have closed : Sealed first.tokens := ⟨last, TokenStream.kind_ne_leftBrace plain⟩
  have beside : first.Beside c joined := by
    refine ⟨?_, fun nothing => (by cases nothing), fun _ => closed, rfl, rfl⟩
    rw [tokens]
    exact congrArg (· ++ rest) (List.map_id _).symm
  obtain ⟨t, reaches, tokens, finish', depth, diagnostics⟩ := State.goOn_past rfl beside levelLimit []
  rw [Program.relocate_id] at reaches
  rw [Diagnostic.map_relocate_id] at diagnostics
  have level : t.depth = 0 := depth.trans (first.course_finishProgram levelLimit).1.depth
  have reported : t.journal.diagnostics = (parse front).diagnostics := diagnostics
  rw [← reported]
  exact parse_join (.refl _) rfl reaches tokens (finish'.trans finish) level

/-- What is wrong in front of the last semicolon is reported, and the statement behind it is kept. -/
theorem parse_behind_semicolon_malformed :
    (parse ("a = (1; let = 2; #;" ++ "\n" ++ "b = c; fn")).program.map Statement.token =
        [⟨.identifier, "b", ⟨2, 1⟩⟩] ∧
      (parse ("a = (1; let = 2; #;" ++ "\n" ++ "b = c; fn")).diagnostics =
        [⟨.unexpected .rightParen .semicolon, ⟨1, 7⟩⟩, ⟨.unexpected .identifier .assign, ⟨1, 13⟩⟩,
          ⟨.illegalCharacter "#", ⟨1, 18⟩⟩, ⟨.unexpected .leftParen .endOfInput, ⟨2, 10⟩⟩] := by
  obtain ⟨program, diagnostics⟩ :=
    parse_behind_semicolon "a = (1; let = 2; #;" "b = c; fn" (by decide) (by decide +kernel)
  rw [program, diagnostics]
  decide +kernel

end LittleScript

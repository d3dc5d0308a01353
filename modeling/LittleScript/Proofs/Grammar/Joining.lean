import LittleScript.Proofs.Grammar.Soundness
import LittleScript.Proofs.Run.Joining

/-!
Two texts with a line feed between them, of which nothing is reported for the first one. The parser looks
one token ahead of what it has used, but no token at the start of the second text changes what it does,
apart from an `else`.
-/

namespace LittleScript.Grammar

open Run Rule

/-- A stray token is passed over wherever it stands in a program. -/
private theorem goOn_stray (limit : Nat) {s : State} (proper : s.tokens ≠ []) (stray : s.current.kind.Stray false)
    (found : List Statement) :
    ∃ t : State, s.goOn limit found = t.goOn limit found ∧ s.Quiet t ∧ t.tokens = s.ahead := by
  obtain ⟨t, run, quiet, ahead⟩ := run_statement_stray (within limit limit) stray
  refine ⟨t.advance, ?_, quiet.trans t.quiet_advance, ahead⟩
  rw [State.goOn, sequenceFrom_step proper rfl, (readsLikeStatement_top limit).skips run]
  rfl

/-- A statement is read wherever it stands in a program, in front of what may follow it. -/
private theorem goOn_statement {limit peak : Nat} {tree : Statement} {tokens rest : List Token}
    (h : Derives (.statement tree) tokens peak) (room : peak ≤ limit)
    (follows : tree.openEnded = true → headKind rest ≠ .elseWord) {s : State}
    (there : s.tokens = tokens ++ rest) (base : s.depth = 0) (found : List Statement) :
    ∃ t : State, s.goOn limit found = t.goOn limit (tree :: found) ∧ s.Quiet t ∧ LeftOf rest t.tokens := by
  have proper : s.tokens ≠ [] := by
    rw [there]
    exact fun nothing => h.begins.1 (List.append_eq_nil_iff.1 nothing).1
  have reads := h.completes limit limit s rest follows there (by rw [base, Nat.zero_add])
  obtain ⟨t, run, quiet, left⟩ := ((readsLikeStatement_top limit).reads reads).fits room
  refine ⟨t.advance, ?_, quiet.trans t.quiet_advance, left⟩
  rw [State.goOn, sequenceFrom_step proper rfl, run]
  rfl

/-- The statements of a derivation are read wherever its tokens stand, if no `else` follows. At either end
a semicolon may have been used up by a function in front of it. -/
private theorem goOn_of_derives {limit : Nat} {trees : List Statement} {tokens rest : List Token} {peak : Nat}
    (h : Derives (.statements false trees) tokens peak) (room : peak ≤ limit)
    (other : headKind rest ≠ .elseWord) {s : State} (left : LeftOf (tokens ++ rest) s.tokens)
    (base : s.depth = 0) (found : List Statement) :
    ∃ t : State, s.goOn limit found = t.goOn limit (trees.reverse ++ found) ∧ s.Quiet t ∧
      LeftOf rest t.tokens := by
  generalize whole : Phrase.statements false trees = phrase at h
  induction h generalizing trees s found with
  | noStatements =>
    obtain ⟨-, rfl⟩ := Phrase.statements.inj whole
    exact ⟨s, rfl, .refl s, left⟩
  | @stray inBlock token trees' tokens peak skipped others ih =>
    obtain ⟨rfl, rfl⟩ := Phrase.statements.inj whole
    obtain same | ⟨stop, -, cons⟩ := left
    · rw [← State.current_of_tokens same] at skipped
      have proper : s.tokens ≠ [] := by
        rw [same]
        exact List.cons_ne_nil _ _
      obtain ⟨t, passed, quiet, ahead⟩ := goOn_stray limit proper skipped found
      have behind : t.tokens = tokens ++ rest := ahead.trans (State.ahead_of_tokens same)
      obtain ⟨u, read, quiet', left⟩ := ih room (.inl behind) (quiet.depth.trans base) found rfl
      exact ⟨u, passed.trans read, quiet.trans quiet', left⟩
    · -- The semicolon in front belonged to a function; the rest is read as before.
      obtain ⟨-, same⟩ := List.cons.inj cons
      exact ih room (.inl same.symm) base found rfl
  | @statement inBlock tree trees' front back low high first others complete _ ih =>
    obtain ⟨rfl, rfl⟩ := Phrase.statements.inj whole
    rw [List.append_assoc] at left
    have there := left.eq_of_begins first.begins
    obtain ⟨t, passed, quiet, left⟩ :=
      goOn_statement first (Nat.max_le.1 room).1 (follows_statement complete other) there base found
    obtain ⟨u, read, quiet', left⟩ :=
      ih (Nat.max_le.1 room).2 left (quiet.depth.trans base) (tree :: found) rfl
    refine ⟨u, ?_, quiet.trans quiet', left⟩
    rw [passed, read, List.reverse_cons, List.append_assoc, List.singleton_append]
  | _ => cases whole

/-- On its own, the second text is parsed alike with and without a semicolon at its start. -/
private theorem finishProgram_of_leftOf (limit : Nat) {stream : TokenStream} {f : Location → Location}
    {left : List Token} (h : LeftOf (stream.tokens.map (Token.relocate f)) left) :
    ∃ s : State, (State.start stream .empty).finishProgram limit = s.finishProgram limit ∧
      (State.start stream .empty).Quiet s ∧ left = s.tokens.map (Token.relocate f) := by
  obtain same | ⟨stop, semicolon, cons⟩ := h
  · exact ⟨_, rfl, .refl _, same⟩
  · obtain ⟨first, others, tokens, rfl, same⟩ := List.map_eq_cons_iff.1 cons
    have tokens : (State.start stream .empty).tokens = first :: others := tokens
    have stray : (State.start stream .empty).current.kind.Stray false := by
      rw [State.current_of_tokens tokens, ← Token.kind_relocate f, semicolon]
      exact ⟨by decide, by decide⟩
    have proper : (State.start stream .empty).tokens ≠ [] := by
      rw [tokens]
      exact List.cons_ne_nil _ _
    obtain ⟨s, passed, quiet, ahead⟩ := goOn_stray limit proper stray []
    refine ⟨s, passed, quiet, ?_⟩
    rw [ahead, State.ahead_of_tokens tokens, same]

/-- Nothing of a text for which nothing is reported reaches into the text behind it, unless that starts
with an `else`. -/
theorem parse_behind_silent (front back : String) (silent : (parse front).diagnostics = [])
    (other : headKind (TokenStream.ofText back).tokens ≠ .elseWord) :
    (parse (front ++ "\n" ++ back)).program =
        (parse front).program ++ (parse back).program.relocate (Location.below front) ∧
      (parse (front ++ "\n" ++ back)).diagnostics =
        (parse back).diagnostics.map (Diagnostic.relocate (Location.below front)) := by
  let rest := (TokenStream.ofText back).tokens.map (Token.relocate (Location.below front))
  have other : headKind rest ≠ .elseWord := by
    rw [headKind_map_relocate]
    exact other
  obtain ⟨tokens, finish⟩ := start_join front back
  obtain ⟨peak, room, derives⟩ := sentence_of_silent silent
  obtain ⟨t, reaches, quiet, left⟩ := goOn_of_derives derives room other (.inl tokens) rfl []
  obtain ⟨s, same, quiet', tokens⟩ := finishProgram_of_leftOf levelLimit left
  rw [List.append_nil] at reaches
  obtain ⟨program, diagnostics⟩ :=
    parse_join quiet' same reaches tokens (quiet.finish.trans finish) quiet.depth
  refine ⟨program, ?_⟩
  rw [diagnostics, quiet.silent]
  rfl

/-- A function uses up the semicolon that the second text starts with. A block that the second text does
not close is reported with both its places. -/
theorem parse_behind_silent_function :
    (parse ("fn(a) \x7b return a; \x7d" ++ "\n" ++ "; c = 1; fn() \x7b")).program.map Statement.token =
        [⟨.fnWord, "fn", ⟨1, 1⟩⟩, ⟨.identifier, "c", ⟨2, 3⟩⟩] ∧
      (parse ("fn(a) \x7b return a; \x7d" ++ "\n" ++ "; c = 1; fn() \x7b")).diagnostics =
        [⟨.unterminatedBlock ⟨2, 15⟩, ⟨2, 16⟩⟩] := by
  obtain ⟨program, diagnostics⟩ := parse_behind_silent "fn(a) \x7b return a; \x7d" "; c = 1; fn() \x7b"
    (by decide +kernel) (by decide +kernel)
  rw [program, diagnostics]
  decide +kernel

end LittleScript.Grammar

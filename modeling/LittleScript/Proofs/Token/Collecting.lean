import LittleScript.Token.Lexer

/-!
How a reader collects tokens, one step at a time: nothing is left, a token is found, or a blank is passed
over.
-/

namespace LittleScript.Lexer
variable {lexer after : Lexer} {token : Token} {found : List Token}

/-- Behind the blanks the first lexeme is taken. -/
theorem token?_of_settled {c : Char} {rest : List Char} (settled : lexer.settle.rest = c :: rest) :
    lexer.token? = some
      (⟨(Lexeme.first c rest).kind, String.ofList (Lexeme.first c rest).taken, lexer.settle.location⟩,
        ⟨(Lexeme.first c rest).rest, lexer.settle.location.after (Lexeme.first c rest).taken,
          lexer.ended⟩) := by
  rw [token?]
  split
  · rename_i nothing
    rw [settled] at nothing
    cases nothing
  · rename_i d others same
    obtain ⟨rfl, rfl⟩ := List.cons.inj (settled.symm.trans same)
    rfl

/-- A token is the first lexeme behind the blanks. -/
theorem settled_of_token? (h : lexer.token? = some (token, after)) :
    ∃ c rest, lexer.settle.rest = c :: rest ∧
      token = ⟨(Lexeme.first c rest).kind, String.ofList (Lexeme.first c rest).taken,
        lexer.settle.location⟩ ∧
      after = ⟨(Lexeme.first c rest).rest, lexer.settle.location.after (Lexeme.first c rest).taken,
        lexer.ended⟩ := by
  cases settled : lexer.settle.rest with
  | nil =>
    rw [token?, settled] at h
    cases h
  | cons c rest =>
    rw [token?_of_settled settled] at h
    obtain ⟨rfl, rfl⟩ := Prod.mk.inj (Option.some.inj h)
    exact ⟨c, rest, rfl, rfl, rfl⟩

/-- There is no token where nothing but blanks is left. -/
theorem token?_eq_none : lexer.token? = none ↔ lexer.settle.rest = [] := by
  rw [token?]
  split
  · rename_i nothing
    exact iff_of_true rfl nothing
  · rename_i c rest settled
    rw [settled]
    exact iff_of_false (Option.some_ne_none _) (List.cons_ne_nil c rest)

theorem collect_none (h : lexer.token? = none) : lexer.collect found = (found.reverse, lexer.settle) := by
  rw [collect]
  split
  · rfl
  · rename_i read
    rw [h] at read
    cases read

theorem collect_some (h : lexer.token? = some (token, after)) :
    lexer.collect found = after.collect (token :: found) := by
  rw [collect]
  split
  · rename_i ended
    rw [h] at ended
    cases ended
  · rename_i read
    rw [h] at read
    cases read
    rfl

/-- A blank is passed over. -/
theorem collect_blank {c : Char} (blank : isBlank c = true) (rest : List Char) (here : Location)
    (ended : Bool) :
    collect ⟨c :: rest, here, ended⟩ found = collect ⟨rest, here.next c, ended⟩ found := by
  have settled : settle ⟨c :: rest, here, ended⟩ = settle ⟨rest, here.next c, ended⟩ := by
    simp only [settle, List.dropWhile_cons_of_pos blank, List.takeWhile_cons_of_pos blank,
      Location.after_cons]
  have same : token? ⟨c :: rest, here, ended⟩ = token? ⟨rest, here.next c, ended⟩ := by
    simp only [token?, settled]
  cases read : token? ⟨rest, here.next c, ended⟩ with
  | none => rw [collect_none (same.trans read), collect_none read, settled]
  | some result => rw [collect_some (same.trans read), collect_some read]

/-- Where no blank stands in front the first lexeme is taken. -/
theorem collect_lexeme {c : Char} (proper : isBlank c = false) (rest : List Char) (here : Location)
    (ended : Bool) :
    collect ⟨c :: rest, here, ended⟩ found =
      collect ⟨(Lexeme.first c rest).rest, here.after (Lexeme.first c rest).taken, ended⟩
        (⟨(Lexeme.first c rest).kind, String.ofList (Lexeme.first c rest).taken, here⟩ :: found) := by
  have stays : ¬ isBlank c = true := by
    rw [proper]
    exact Bool.false_ne_true
  have settled : settle ⟨c :: rest, here, ended⟩ = ⟨c :: rest, here, ended⟩ := by
    simp only [settle, List.dropWhile_cons_of_neg stays, List.takeWhile_cons_of_neg stays,
      Location.after_nil]
  have read := token?_of_settled (congrArg Lexer.rest settled)
  rw [settled] at read
  exact collect_some read

end LittleScript.Lexer

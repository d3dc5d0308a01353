import LittleScript.Proofs.Token.Joining
import LittleScript.Proofs.Token.Order

/-!
Texts that are cut between two tokens. The part in front has the first tokens of the whole text.
-/

namespace LittleScript

/-- Each token ends in front of the place or starts behind it. -/
def TokenStream.Boundary (stream : TokenStream) (place : Location) : Prop :=
  ∀ token ∈ stream.tokens, token.location.after token.literal.toList ≤ place ∨ place ≤ token.location

instance (stream : TokenStream) (place : Location) : Decidable (stream.Boundary place) :=
  inferInstanceAs (Decidable (∀ token ∈ stream.tokens, _ ∨ _))

/-- Of two beginnings of a text, the one that ends no later is a beginning of the other. -/
private theorem Location.prefix_of_after_le {here : Location} {a b whole : List Char} (first : a <+: whole)
    (second : b <+: whole) (le : here.after a ≤ here.after b) : a <+: b := by
  rcases List.prefix_or_prefix_of_prefix first second with fits | ⟨beyond, rfl⟩
  · exact fits
  · cases beyond with
    | nil => exact ⟨[], by rw [List.append_nil, List.append_nil]⟩
    | cons c beyond =>
      rw [Location.after_append] at le
      exact absurd (Location.lt_after _ (List.cons_ne_nil c beyond)) (not_lt_of_ge le)

/-- A run of characters that goes no further than the first text is a run of that. -/
private theorem takeWhile_of_fits {p : Char → Bool} {run more : List Char}
    (fits : ((run ++ more).takeWhile p).length ≤ run.length) :
    (run ++ more).takeWhile p = run.takeWhile p ∧
      (run ++ more).dropWhile p = run.dropWhile p ++ more := by
  induction run with
  | nil =>
    have nothing : more.takeWhile p = [] := List.eq_nil_of_length_eq_zero (Nat.le_zero.1 fits)
    have rest := @List.takeWhile_append_dropWhile _ p more
    rw [nothing] at rest
    exact ⟨nothing, rest⟩
  | cons c run ih =>
    by_cases own : p c = true
    · rw [List.cons_append, List.takeWhile_cons_of_pos own] at fits ⊢
      obtain ⟨taken, left⟩ := ih (Nat.le_of_succ_le_succ fits)
      rw [List.takeWhile_cons_of_pos own, List.dropWhile_cons_of_pos own, List.dropWhile_cons_of_pos own,
        taken, left]
      exact ⟨rfl, rfl⟩
    · rw [List.cons_append, List.takeWhile_cons_of_neg own, List.takeWhile_cons_of_neg own,
        List.dropWhile_cons_of_neg own, List.dropWhile_cons_of_neg own]
      exact ⟨rfl, rfl⟩

/-- A lexeme that goes no further than the first text is a lexeme of that. -/
private theorem Lexeme.first_of_fits {c : Char} {rest more : List Char}
    (fits : (first c (rest ++ more)).taken <+: c :: rest) :
    first c (rest ++ more) =
      ⟨(first c rest).kind, (first c rest).taken, (first c rest).rest ++ more⟩ := by
  have short := fits.length_le
  by_cases own : isLetter c = true ∨ c.isDigit = true
  · rw [first_of_class own] at short ⊢
    rw [first_of_class own]
    by_cases letter : isLetter c = true
    · rw [if_pos letter] at short
      obtain ⟨word, behind⟩ := takeWhile_of_fits (Nat.le_of_succ_le_succ short)
      rw [if_pos letter, if_pos letter, word, behind]
    · rw [if_neg letter] at short
      obtain ⟨number, behind⟩ := takeWhile_of_fits (Nat.le_of_succ_le_succ short)
      rw [if_neg letter, if_neg letter, number, behind]
  · by_cases paired : (c = '=' ∨ c = '!') ∧ rest.head? = some '='
    · obtain ⟨after, rfl⟩ := List.head?_eq_some_iff.1 paired.2
      obtain rfl | rfl := paired.1 <;> rfl
    · have stays : ¬ ((c = '=' ∨ c = '!') ∧ (rest ++ more).head? = some '=') := by
        rintro ⟨half, next⟩
        cases rest with
        | nil =>
          obtain ⟨after, rfl⟩ := List.head?_eq_some_iff.1 next
          obtain rfl | rfl := half
          all_goals exact absurd (Nat.le_of_succ_le_succ short) (Nat.not_succ_le_zero 0)
        | cons d rest => exact paired ⟨half, next⟩
      rw [first_alone own stays, first_alone own paired]

namespace Lexer
variable {lexer after : Lexer} {token : Token} {found : List Token}

/-- A reader stops at the end of its text. -/
private theorem location_collect (lexer : Lexer) (found : List Token) :
    (lexer.collect found).2.location = lexer.location.after lexer.rest := by
  fun_induction collect lexer found with
  | case1 lexer found ended =>
    rw [← after_settle, token?_eq_none.1 ended]
    rfl
  | case2 lexer found token after read ih => rw [ih, after_of_token? read]

/-- A token of the text in front is read, unless the text behind goes on with it. -/
private theorem token?_followed {more : List Char} (read : lexer.token? = some (token, after))
    (fits : ∀ whole behind, (lexer.followed more).token? = some (whole, behind) →
      whole.location.after whole.literal.toList ≤ lexer.location.after lexer.rest ∨
        lexer.location.after lexer.rest ≤ whole.location) :
    (lexer.followed more).token? = some (token, after.followed more) := by
  obtain ⟨c, rest, settled, rfl, rfl⟩ := settled_of_token? read
  have proper : lexer.settle.rest ≠ [] := by
    rw [settled]
    exact List.cons_ne_nil c rest
  have joined := @settle_followed lexer more proper
  have rest_joined : (lexer.followed more).settle.rest = c :: (rest ++ more) := by
    rw [joined, followed, settled]
    rfl
  have place : lexer.location.after lexer.rest = lexer.settle.location.after (c :: rest) := by
    rw [← after_settle, settled]
  have read' := token?_of_settled rest_joined
  have inside := fits _ _ read'
  rw [place, joined] at inside
  have short : (Lexeme.first c (rest ++ more)).taken <+: c :: rest := by
    rcases inside with before | behind
    · rw [String.toList_ofList] at before
      refine Location.prefix_of_after_le ?_ (List.prefix_append (c :: rest) more) before
      exact ⟨_, Lexeme.first_taken_append_rest c (rest ++ more)⟩
    · exact absurd (Location.lt_after _ (List.cons_ne_nil c rest)) (not_lt_of_ge behind)
  rw [read', joined, Lexeme.first_of_fits short]
  rfl

/-- A reader of the whole text collects the tokens of the text in front first. -/
private theorem collect_followed (lexer : Lexer) (more : List Char) (found : List Token)
    (boundary : ∀ token ∈ ((lexer.followed more).collect found).1,
      token.location.after token.literal.toList ≤ lexer.location.after lexer.rest ∨
        lexer.location.after lexer.rest ≤ token.location) :
    (lexer.collect found).1 <+: ((lexer.followed more).collect found).1 := by
  fun_induction collect lexer found with
  | case1 lexer found ended =>
    have rest := collect_append (lexer.followed more) [] found
    rw [List.nil_append] at rest
    rw [rest]
    exact List.prefix_append _ _
  | case2 lexer found token after read ih =>
    have read' := @token?_followed lexer after token more read fun whole behind read => by
      apply boundary
      have rest := collect_append behind [] (whole :: found)
      rw [List.nil_append] at rest
      rw [collect_some read, rest]
      simp
    rw [collect_some read'] at boundary ⊢
    apply ih
    rw [after_of_token? read]
    exact boundary

end Lexer

namespace TokenStream

/-- The end mark stands behind the last character. -/
theorem finish_ofText (text : String) : (ofText text).finish = Location.start.after text.toList :=
  Lexer.location_collect (Lexer.ofText text) []

/-- Where no token is cut, the text in front has the first tokens of the whole text. -/
theorem tokens_prefix {front back : String}
    (boundary : (ofText (front ++ back)).Boundary (ofText front).finish) :
    (ofText front).tokens <+: (ofText (front ++ back)).tokens := by
  have joined : Lexer.ofText (front ++ back) = (Lexer.ofText front).followed back.toList := by
    rw [Lexer.ofText, String.toList_append]
    rfl
  rw [Boundary, finish_ofText] at boundary
  rw [ofText, ofText, ofLexer, ofLexer, joined]
  rw [ofText, ofLexer, joined] at boundary
  exact Lexer.collect_followed (Lexer.ofText front) back.toList [] boundary

end TokenStream
end LittleScript

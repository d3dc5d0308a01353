import Mathlib.Data.List.TakeWhile
import LittleScript.Proofs.Token.Lexical

/-!
The tokens of two texts with a line feed between them. No token reaches over the line feed, so those of
both texts are read; the tokens of the second text stand further down.
-/

namespace LittleScript

namespace Location

/-- Where a place of a text is when the text stands behind `front` and a line feed. -/
def below (front : String) (here : Location) : Location := here.shift (front.toList.count '\n' + 1)

private theorem next_shift (here : Location) (lines : Nat) (c : Char) :
    (here.shift lines).next c = (here.next c).shift lines := by
  unfold next
  split
  · simp only [shift, Nat.add_right_comm]
  · rfl

private theorem after_shift (here : Location) (lines : Nat) (text : List Char) :
    (here.shift lines).after text = (here.after text).shift lines := by
  induction text generalizing here with
  | nil => rfl
  | cons c text ih => rw [after_cons, after_cons, next_shift, ih]

/-- Each line feed ends a line. -/
theorem line_after (here : Location) (text : List Char) :
    (here.after text).line = here.line + text.count '\n' := by
  induction text generalizing here with
  | nil => rfl
  | cons c text ih =>
    rw [after_cons, ih, next, List.count_cons]
    by_cases feed : c = '\n'
    · subst feed
      simp only [if_true, beq_self_eq_true]
      omega
    · simp only [feed, if_false, beq_iff_eq, Nat.add_zero]

/-- The first place behind a text and a line feed. -/
private theorem next_after_start (text : List Char) :
    (start.after text).next '\n' = start.shift (text.count '\n' + 1) := by
  rw [next, if_pos rfl, line_after]
  simp only [start, shift, Nat.add_assoc]

end Location

/-- A run of characters of a class does not go on over a character of another class. -/
theorem takeWhile_append_stop {p : Char → Bool} {stop : Char} (other : p stop = false)
    (run more : List Char) :
    (run ++ stop :: more).takeWhile p = run.takeWhile p ∧
      (run ++ stop :: more).dropWhile p = run.dropWhile p ++ stop :: more := by
  have stops : ¬ p stop = true := by
    rw [other]
    exact Bool.false_ne_true
  induction run with
  | nil =>
    rw [List.nil_append, List.takeWhile_cons_of_neg stops, List.dropWhile_cons_of_neg stops]
    exact ⟨rfl, rfl⟩
  | cons c run ih =>
    by_cases own : p c = true
    · rw [List.cons_append, List.takeWhile_cons_of_pos own, List.takeWhile_cons_of_pos own,
        List.dropWhile_cons_of_pos own, List.dropWhile_cons_of_pos own, ih.1, ih.2]
      exact ⟨rfl, rfl⟩
    · rw [List.cons_append, List.takeWhile_cons_of_neg own, List.takeWhile_cons_of_neg own,
        List.dropWhile_cons_of_neg own, List.dropWhile_cons_of_neg own]
      exact ⟨rfl, rfl⟩

/-- A character that starts no run of a class is a lexeme, unless it is the first half of a pair. -/
theorem Lexeme.first_alone {c : Char} (other : ¬ (isLetter c = true ∨ c.isDigit = true)) {rest : List Char}
    (unpaired : ¬ ((c = '=' ∨ c = '!') ∧ rest.head? = some '=')) :
    first c rest = ⟨(Kind.ofChar? c).getD .illegal, [c], rest⟩ := by
  unfold first
  split
  · exact absurd ⟨.inl rfl, rfl⟩ unpaired
  · exact absurd ⟨.inr rfl, rfl⟩ unpaired
  · rw [not_or] at other
    cases made : Kind.ofChar? c with
    | some kind => rfl
    | none =>
      dsimp only
      rw [if_neg other.1, if_neg other.2, Option.getD_none]

/-- A blank belongs to no word and to no number. -/
private theorem class_of_blank {c : Char} (blank : isBlank c = true) : isLetter c = false ∧ c.isDigit = false := by
  by_cases own : isLetter c = true ∨ c.isDigit = true
  · rw [isBlank_eq_false own] at blank
    cases blank
  · rw [not_or, Bool.not_eq_true, Bool.not_eq_true] at own
    exact own

/-- Where neither a word nor a number begins, a lexeme does not go on over anything but an equals sign. -/
theorem Lexeme.first_append_sign {c stop : Char} (other : ¬ (isLetter c = true ∨ c.isDigit = true))
    (unpaired : stop ≠ '=') (rest more : List Char) :
    first c (rest ++ stop :: more) =
      ⟨(first c rest).kind, (first c rest).taken, (first c rest).rest ++ stop :: more⟩ := by
  by_cases paired : (c = '=' ∨ c = '!') ∧ rest.head? = some '='
  · obtain ⟨after, rfl⟩ := List.head?_eq_some_iff.1 paired.2
    obtain rfl | rfl := paired.1 <;> rfl
  · have stays : ¬ ((c = '=' ∨ c = '!') ∧ (rest ++ stop :: more).head? = some '=') := by
      rintro ⟨half, next⟩
      cases rest with
      | nil => exact unpaired (Option.some.inj next)
      | cons d rest => exact paired ⟨half, next⟩
    rw [first_alone other stays, first_alone other paired]

/-- No lexeme reaches over a blank. -/
private theorem Lexeme.first_append_blank {stop : Char} (blank : isBlank stop = true) (c : Char)
    (rest more : List Char) :
    first c (rest ++ stop :: more) =
      ⟨(first c rest).kind, (first c rest).taken, (first c rest).rest ++ stop :: more⟩ := by
  by_cases own : isLetter c = true ∨ c.isDigit = true
  · obtain ⟨noLetter, noDigit⟩ := class_of_blank blank
    obtain ⟨word, behindWord⟩ := takeWhile_append_stop noLetter rest more
    obtain ⟨number, behindNumber⟩ := takeWhile_append_stop noDigit rest more
    rw [first_of_class own, first_of_class own, word, behindWord, number, behindNumber]
    split <;> rfl
  · refine first_append_sign own ?_ rest more
    rintro rfl
    exact absurd blank (by decide)

namespace Lexer
variable {lexer after : Lexer} {token : Token} {found : List Token} {text : List Char}

def followed (lexer : Lexer) (more : List Char) : Lexer := { lexer with rest := lexer.rest ++ more }

private def before (lexer : Lexer) (more : List Char) : Lexer :=
  { lexer with rest := lexer.rest ++ '\n' :: more }

private def shift (lexer : Lexer) (lines : Nat) : Lexer :=
  { lexer with location := lexer.location.shift lines }

theorem after_settle (lexer : Lexer) :
    lexer.settle.location.after lexer.settle.rest = lexer.location.after lexer.rest := by
  simp only [settle]
  rw [← Location.after_append, List.takeWhile_append_dropWhile]

/-- A reader comes to the same end from behind a token. -/
theorem after_of_token? (h : lexer.token? = some (token, after)) :
    after.location.after after.rest = lexer.location.after lexer.rest := by
  obtain ⟨c, rest, settled, rfl, rfl⟩ := settled_of_token? h
  dsimp only
  rw [← Location.after_append, Lexeme.first_taken_append_rest, ← settled, after_settle]

/-- Blanks are passed over. -/
theorem collect_blanks {blanks : List Char} (all : ∀ c ∈ blanks, isBlank c = true) (rest : List Char)
    (here : Location) (ended : Bool) :
    collect ⟨blanks ++ rest, here, ended⟩ found = collect ⟨rest, here.after blanks, ended⟩ found := by
  induction blanks generalizing here with
  | nil => rfl
  | cons c blanks ih =>
    rw [List.cons_append, collect_blank (all c List.mem_cons_self),
      ih fun d mem => all d (List.mem_cons_of_mem c mem), Location.after_cons]

theorem settle_followed {more : List Char} (proper : lexer.settle.rest ≠ []) :
    (lexer.followed more).settle = lexer.settle.followed more := by
  have proper : lexer.rest.dropWhile isBlank ≠ [] := proper
  have fewer : (lexer.rest.takeWhile isBlank).length ≠ lexer.rest.length := by
    have whole := congrArg List.length (@List.takeWhile_append_dropWhile _ isBlank lexer.rest)
    have some_left := List.length_pos_iff.2 proper
    rw [List.length_append] at whole
    omega
  simp only [settle, followed, List.dropWhile_append, List.takeWhile_append, List.isEmpty_iff, if_neg proper,
    if_neg fewer]

/-- A token is read as if nothing followed, if that holds of its lexeme. -/
theorem token?_followed_of_first {more : List Char} (h : lexer.token? = some (token, after))
    (first : ∀ c rest, lexer.settle.rest = c :: rest → Lexeme.first c (rest ++ more) =
      ⟨(Lexeme.first c rest).kind, (Lexeme.first c rest).taken, (Lexeme.first c rest).rest ++ more⟩) :
    (lexer.followed more).token? = some (token, after.followed more) := by
  obtain ⟨c, rest, settled, rfl, rfl⟩ := settled_of_token? h
  have joined : (lexer.followed more).settle = lexer.settle.followed more := by
    apply settle_followed
    rw [settled]
    exact List.cons_ne_nil c rest
  have rest_joined : (lexer.followed more).settle.rest = c :: (rest ++ more) := by
    rw [joined, followed, settled]
    rfl
  rw [token?_of_settled rest_joined, joined, first c rest settled]
  rfl

/-- A token in front of a blank is read as if nothing followed. -/
private theorem token?_followed_blank {stop : Char} (blank : isBlank stop = true) (more : List Char)
    (h : lexer.token? = some (token, after)) :
    (lexer.followed (stop :: more)).token? = some (token, after.followed (stop :: more)) :=
  token?_followed_of_first h fun c rest _ => Lexeme.first_append_blank blank c rest more

/-- Behind the tokens in front of a blank, those of the rest are collected. -/
private theorem collect_followed_blank {stop : Char} (blank : isBlank stop = true) (lexer : Lexer) (more : List Char)
    (found : List Token) :
    (lexer.followed (stop :: more)).collect found =
      collect ⟨more, (lexer.location.after lexer.rest).next stop, lexer.ended⟩
        (lexer.collect found).1.reverse := by
  fun_induction collect lexer found with
  | case1 lexer found ended =>
    have blanks : ∀ c ∈ lexer.rest, isBlank c = true := List.dropWhile_eq_nil_iff.1 (token?_eq_none.1 ended)
    rw [followed, collect_blanks blanks, collect_blank blank, List.reverse_reverse]
  | case2 lexer found token after read ih =>
    have same : after.ended = lexer.ended := by
      obtain ⟨c, rest, -, -, rfl⟩ := settled_of_token? read
      rfl
    rw [collect_some (token?_followed_blank blank more read), ih, after_of_token? read, same]

/-- Behind the tokens of the text in front, those of the other text are collected. -/
private theorem collect_before (lexer : Lexer) (more : List Char) (found : List Token) :
    (lexer.before more).collect found =
      collect ⟨more, (lexer.location.after lexer.rest).next '\n', lexer.ended⟩
        (lexer.collect found).1.reverse := collect_followed_blank rfl lexer more found

private theorem settle_shift (lexer : Lexer) (lines : Nat) :
    (lexer.shift lines).settle = lexer.settle.shift lines := by
  simp only [settle, shift, Location.after_shift]

/-- What is read further down stands further down. -/
private theorem token?_shift (lexer : Lexer) (lines : Nat) :
    (lexer.shift lines).token? =
      lexer.token?.map fun (token, after) => (token.relocate (·.shift lines), after.shift lines) := by
  cases settled : lexer.settle.rest with
  | nil =>
    have moved : (lexer.shift lines).settle.rest = [] := by
      rw [settle_shift]
      exact settled
    rw [token?_eq_none.2 settled, token?_eq_none.2 moved]
    rfl
  | cons c rest =>
    have moved : (lexer.shift lines).settle.rest = c :: rest := by
      rw [settle_shift]
      exact settled
    rw [token?_of_settled settled, token?_of_settled moved, settle_shift]
    simp only [shift, Location.after_shift, Option.map_some, Token.relocate]

private theorem collect_shift (lexer : Lexer) (lines : Nat) (found : List Token) :
    (lexer.shift lines).collect (found.map (Token.relocate (·.shift lines))) =
      ((lexer.collect found).1.map (Token.relocate (·.shift lines)),
        (lexer.collect found).2.shift lines) := by
  fun_induction collect lexer found with
  | case1 lexer found ended =>
    have moved : (lexer.shift lines).token? = none := by
      rw [token?_shift, ended]
      rfl
    rw [collect_none moved, settle_shift, List.map_reverse]
  | case2 lexer found token after read ih =>
    have moved : (lexer.shift lines).token? = some (token.relocate (·.shift lines), after.shift lines) := by
      rw [token?_shift, read]
      rfl
    rw [collect_some moved, ← List.map_cons, ih]

/-- Tokens found earlier stand in front of all others. -/
theorem collect_append (lexer : Lexer) (found earlier : List Token) :
    lexer.collect (found ++ earlier) =
      (earlier.reverse ++ (lexer.collect found).1, (lexer.collect found).2) := by
  fun_induction collect lexer found with
  | case1 lexer found ended => rw [collect_none ended, List.reverse_append]
  | case2 lexer found token after read ih => rw [collect_some read, ← ih, List.cons_append]

/-- Whatever stands in a token stands in the text. -/
private theorem literal_subset_collect (h : ∀ token ∈ found, token.literal.toList ⊆ text)
    (inside : lexer.rest ⊆ text) : ∀ token ∈ (lexer.collect found).1, token.literal.toList ⊆ text := by
  fun_induction collect lexer found with
  | case1 lexer found ended => exact fun token mem => h token (List.mem_reverse.1 mem)
  | case2 lexer found token after read ih =>
    obtain ⟨c, rest, settled, rfl, rfl⟩ := settled_of_token? read
    have used : c :: rest ⊆ text := by
      rw [← settled]
      exact fun d mem => inside ((List.dropWhile_suffix isBlank).subset mem)
    rw [← Lexeme.first_taken_append_rest] at used
    refine ih ?_ fun d mem => used (List.mem_append_right _ mem)
    intro other mem
    obtain rfl | mem := List.mem_cons.1 mem
    · rw [String.toList_ofList]
      exact fun d mem => used (List.mem_append_left _ mem)
    · exact h other mem

end Lexer

namespace TokenStream

/-- The tokens of two texts with a line feed between them. -/
theorem ofText_join (front back : String) :
    ofText (front ++ "\n" ++ back) =
      ⟨(ofText front).tokens ++ (ofText back).tokens.map (Token.relocate (Location.below front)),
        (ofText back).finish.below front⟩ := by
  let lines := front.toList.count '\n' + 1
  let first := Lexer.ofText front
  let second := Lexer.ofText back
  have joined : Lexer.ofText (front ++ "\n" ++ back) = first.before second.rest := by
    simp only [Lexer.ofText, Lexer.before, first, second, String.toList_append, List.append_assoc]
    rfl
  have behind : (⟨second.rest, (first.location.after first.rest).next '\n', first.ended⟩ : Lexer) =
      second.shift lines := congrArg (Lexer.mk _ · _) (Location.next_after_start front.toList)
  have read := Lexer.collect_before first second.rest []
  have others := Lexer.collect_append (second.shift lines) [] (first.collect []).1.reverse
  have moved := Lexer.collect_shift second lines []
  rw [List.map_nil] at moved
  rw [behind, ← List.nil_append (first.collect []).1.reverse, others, moved, List.reverse_reverse] at read
  simp only [ofText, ofLexer, joined, read]
  rfl

/-- A blank behind a text makes no difference to its tokens. -/
theorem tokens_ofText_blank {stop : Char} (blank : isBlank stop = true) (line : List Char) :
    (ofText (String.ofList (line ++ [stop]))).tokens = (ofText (String.ofList line)).tokens := by
  have longer : Lexer.ofText (String.ofList (line ++ [stop])) =
      (Lexer.ofText (String.ofList line)).followed [stop] := by
    simp only [Lexer.ofText, Lexer.followed, String.toList_ofList]
  have read := Lexer.collect_followed_blank blank (Lexer.ofText (String.ofList line)) [] []
  simp only [ofText, ofLexer, longer, read]
  rw [Lexer.collect_none rfl, List.reverse_reverse]

/-- Where no character of the text is an opening brace, no token is one. -/
theorem kind_ne_leftBrace {text : String} (h : '{' ∉ text.toList) :
    ∀ token ∈ (ofText text).tokens, token.kind ≠ .leftBrace := by
  intro token mem brace
  have inside : token.literal.toList ⊆ text.toList :=
    Lexer.literal_subset_collect (fun _ none => absurd none List.not_mem_nil) (List.Subset.refl _) token mem
  obtain illegal | lexical := lexical_of_mem text token mem
  · rw [brace] at illegal
    cases illegal
  · rw [brace] at lexical
    have literal : token.literal = Kind.leftBrace.symbol := lexical.of_sign (by decide)
    apply h
    apply inside
    rw [literal]
    decide

end TokenStream

end LittleScript

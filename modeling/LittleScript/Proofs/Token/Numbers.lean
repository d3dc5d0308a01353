import LittleScript.Proofs.Token.Covering

/-!
Numbers in a text. Digits that have no other digits beside them are one token, however many they are, and the
tokens in front of them are read as if nothing followed.
-/

namespace LittleScript

def Stopped (p : Char → Bool) (text : List Char) : Prop := ∀ c ∈ text.getLast?, p c = false

namespace Stopped
variable {p : Char → Bool} {a b run : List Char}

private theorem suffix (h : Stopped p b) (last : a <:+ b) : Stopped p a := by
  obtain ⟨front, rfl⟩ := last
  intro c mem
  apply h
  rw [List.getLast?_append, mem, Option.some_or]
  exact rfl

/-- Its last character is outside of each run of the class. -/
private theorem dropWhile_ne_nil {c : Char} (h : Stopped p (c :: run)) (own : p c = true) : run.dropWhile p ≠ [] := by
  intro nothing
  have all : ∀ d ∈ c :: run, p d = true := List.forall_mem_cons.2 ⟨own, List.dropWhile_eq_nil_iff.1 nothing⟩
  have last := List.getLast_mem (List.cons_ne_nil c run)
  have other := h _ (List.getLast?_eq_some_getLast (List.cons_ne_nil c run))
  exact absurd (other.symm.trans (all _ last)) Bool.false_ne_true

end Stopped

/-- A run that ends inside of a text stays the same if more follows. -/
private theorem takeWhile_append_of_inside {p : Char → Bool} {run : List Char} (inside : run.dropWhile p ≠ [])
    (more : List Char) :
    (run ++ more).takeWhile p = run.takeWhile p ∧ (run ++ more).dropWhile p = run.dropWhile p ++ more := by
  have fewer : (run.takeWhile p).length ≠ run.length := by
    have whole := congrArg List.length (@List.takeWhile_append_dropWhile _ p run)
    have some_left := List.length_pos_iff.2 inside
    rw [List.length_append] at whole
    omega
  rw [List.takeWhile_append, if_neg fewer, List.dropWhile_append, if_neg (by simpa using inside)]
  exact ⟨rfl, rfl⟩

/-- No lexeme goes on over a digit that has none in front of it. -/
private theorem Lexeme.first_append_digit {stop : Char} (digit : stop.isDigit = true) {c : Char} {rest : List Char}
    (apart : Stopped Char.isDigit (c :: rest)) (more : List Char) :
    first c (rest ++ stop :: more) =
      ⟨(first c rest).kind, (first c rest).taken, (first c rest).rest ++ stop :: more⟩ := by
  by_cases own : isLetter c = true ∨ c.isDigit = true
  · rw [first_of_class own, first_of_class own]
    by_cases letter : isLetter c = true
    · obtain ⟨word, behind⟩ := takeWhile_append_stop (isLetter_of_isDigit digit) rest more
      rw [if_pos letter, if_pos letter, word, behind]
    · have inside := apart.dropWhile_ne_nil (own.resolve_left letter)
      obtain ⟨number, behind⟩ := takeWhile_append_of_inside inside (stop :: more)
      rw [if_neg letter, if_neg letter, number, behind]
  · refine first_append_sign own ?_ rest more
    rintro rfl
    exact absurd digit (by decide)

namespace Lexer

/-- Behind the tokens of the text in front comes the number, and then what is read of the rest. -/
private theorem collect_followed_number {literal : String} (number : Lexical .integer literal) {back : List Char}
    (behind : Kind.integer.Free back) (lexer : Lexer) (apart : Stopped Char.isDigit lexer.rest)
    (found : List Token) :
    (lexer.followed (literal.toList ++ back)).collect found =
      collect ⟨back, (lexer.location.after lexer.rest).after literal.toList, lexer.ended⟩
        (⟨.integer, literal, lexer.location.after lexer.rest⟩ :: (lexer.collect found).1.reverse) := by
  obtain ⟨stop, digits, spelled, proper, read⟩ := number.first
  fun_induction collect lexer found with
  | case1 lexer found ended =>
    have blanks : ∀ c ∈ lexer.rest, isBlank c = true := List.dropWhile_eq_nil_iff.1 (token?_eq_none.1 ended)
    rw [followed, collect_blanks blanks, spelled, List.cons_append, collect_lexeme proper, read back behind,
      List.reverse_reverse, ← spelled, String.ofList_toList]
  | case2 lexer found token after next ih =>
    have digit : stop.isDigit = true := number.of_integer.2 stop (spelled ▸ List.mem_cons_self)
    have joined : (lexer.followed (literal.toList ++ back)).token? =
        some (token, after.followed (literal.toList ++ back)) := by
      apply token?_followed_of_first next
      intro c rest settled
      have last : c :: rest <:+ lexer.rest := settled ▸ List.dropWhile_suffix isBlank
      rw [spelled, List.cons_append, Lexeme.first_append_digit digit (apart.suffix last)]
    have left : after.rest <:+ lexer.rest := by
      obtain ⟨blanks, -, -, rest, -, -⟩ := taken_of_token? next
      rw [rest, ← List.append_assoc]
      exact List.suffix_append _ _
    have same : after.ended = lexer.ended := by
      obtain ⟨c, rest, -, -, rfl⟩ := settled_of_token? next
      rfl
    rw [collect_some joined, ih (apart.suffix left), after_of_token? next, same]

end Lexer

/-- Digits in a text with no other digits beside them are one token, at their place. The tokens in front are those
of the text in front, and the others are read off what follows. -/
theorem TokenStream.tokens_number {front literal back : String} (number : Lexical .integer literal)
    (apart : Stopped Char.isDigit front.toList) (behind : Kind.integer.Free back.toList) :
    let here := Location.start.after front.toList
    (ofText (front ++ literal ++ back)).tokens =
      (ofText front).tokens ++ ⟨.integer, literal, here⟩ ::
        (ofLexer ⟨back.toList, here.after literal.toList, false⟩).tokens := by
  intro here
  have joined : Lexer.ofText (front ++ literal ++ back) =
      (Lexer.ofText front).followed (literal.toList ++ back.toList) := by
    simp only [Lexer.ofText, Lexer.followed, String.toList_append, List.append_assoc]
  have read := Lexer.collect_followed_number number behind (Lexer.ofText front) apart []
  have others := Lexer.collect_append ⟨back.toList, here.after literal.toList, false⟩ []
    (⟨.integer, literal, here⟩ :: ((Lexer.ofText front).collect []).1.reverse)
  rw [List.nil_append, List.reverse_cons, List.reverse_reverse, List.append_assoc, List.singleton_append] at others
  simp only [ofText, ofLexer, joined, read]
  exact congrArg Prod.fst others

private theorem TokenStream.tokens_nothing (here : Location) : (ofLexer ⟨[], here, false⟩).tokens = [] :=
  congrArg Prod.fst (Lexer.collect_none rfl)

/-- A text of nothing else is this one token. -/
theorem TokenStream.tokens_number_alone {literal : String} (number : Lexical .integer literal) :
    (ofText literal).tokens = [⟨.integer, literal, .start⟩] := by
  have read := @tokens_number "" literal "" number (fun _ none => nomatch none) fun _ none => nomatch none
  have front : (ofText "").tokens = [] := tokens_nothing .start
  rw [String.empty_append, String.append_empty, front] at read
  exact read.trans (congrArg (List.cons _) (tokens_nothing _))

end LittleScript

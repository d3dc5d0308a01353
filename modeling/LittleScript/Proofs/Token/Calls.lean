import Mathlib.Data.List.ReduceOption
import LittleScript.Proofs.Token.Boundary

/-!
The two ways to ask a reader for a token share one place in the text. Calls in any order are answered with
the tokens one by one and then with the end mark. Only the listing knows an end, and only its own end.
-/

namespace LittleScript

inductive Lexer.Call where
  /-- The next entry of the listing. -/
  | next
  /-- The next token, whether the listing has ended or not. -/
  | nextToken
  deriving DecidableEq, Repr

namespace Lexer

def ask (lexer : Lexer) : Call → Option Token × Lexer
  | .next => lexer.next?
  | .nextToken => (some lexer.nextToken.1, lexer.nextToken.2)

def answers (lexer : Lexer) : List Call → List (Option Token) × Lexer
  | [] => ([], lexer)
  | call :: calls =>
    let (answer, after) := lexer.ask call
    let (others, last) := after.answers calls
    (answer :: others, last)

def MarkGiven (calls : List Call) (given : List (Option Token)) : Prop :=
  ∃ mark, (Call.next, some mark) ∈ calls.zip given ∧ mark.kind = .endOfInput

variable {lexer after : Lexer} {token : Token} {call : Call} {calls : List Call}

/-! ### One call -/

private theorem kind_of_token? (h : lexer.token? = some (token, after)) : token.kind ≠ .endOfInput := by
  obtain ⟨c, rest, -, rfl, -⟩ := settled_of_token? h
  obtain illegal | lexical := Lexeme.first_lexical c rest
  · dsimp only
    rw [illegal]
    decide
  · exact lexical.kind_ne_endOfInput

private theorem settle_of_rest (h : lexer.rest = []) : lexer.settle = lexer := by
  obtain ⟨rest, location, ended⟩ := lexer
  cases h
  rfl

/-- The next token is the first of those left, or the end mark if none is left, and the others are left then. -/
private theorem nextToken_eq (lexer : Lexer) :
    let left := TokenStream.ofLexer lexer
    lexer.nextToken.1 = left.tokens.head?.getD (Token.endMark left.finish) ∧
      TokenStream.ofLexer lexer.nextToken.2 = ⟨left.tokens.tail, left.finish⟩ ∧
      lexer.nextToken.2.ended = lexer.ended := by
  cases read : lexer.token? with
  | none =>
    have nothing : lexer.settle.rest = [] := token?_eq_none.1 read
    have stays : lexer.settle.settle = lexer.settle := settle_of_rest nothing
    have none_left : lexer.settle.token? = none := token?_eq_none.2 ((congrArg rest stays).trans nothing)
    have next : lexer.nextToken = (Token.endMark lexer.settle.location, lexer.settle) := by
      rw [nextToken, read, Option.getD_none]
    rw [next]
    simp only [TokenStream.ofLexer, collect_none read, collect_none none_left, stays]
    exact ⟨rfl, rfl, rfl⟩
  | some result =>
    obtain ⟨token, after⟩ := result
    have next : lexer.nextToken = (token, after) := by rw [nextToken, read, Option.getD_some]
    have tokens : lexer.collect [] = (token :: (after.collect []).1, (after.collect []).2) := by
      rw [collect_some read]
      exact collect_append after [] [token]
    have same : after.ended = lexer.ended := by
      obtain ⟨c, rest, -, -, rfl⟩ := settled_of_token? read
      rfl
    rw [next]
    simp only [TokenStream.ofLexer, tokens]
    exact ⟨rfl, rfl, same⟩

/-- The next token is the end mark exactly if no other is left. -/
private theorem nextToken_kind (lexer : Lexer) :
    lexer.nextToken.1.kind = .endOfInput ↔ (TokenStream.ofLexer lexer).tokens = [] := by
  obtain ⟨first, -, -⟩ := lexer.nextToken_eq
  cases read : lexer.token? with
  | none =>
    have nothing : (TokenStream.ofLexer lexer).tokens = [] := congrArg Prod.fst (collect_none read)
    rw [first, nothing]
    exact iff_of_true rfl rfl
  | some result =>
    obtain ⟨token, after⟩ := result
    have tokens : (TokenStream.ofLexer lexer).tokens = token :: (after.collect []).1 := by
      simp only [TokenStream.ofLexer, collect_some read]
      exact congrArg Prod.fst (collect_append after [] [token])
    rw [first, tokens]
    exact iff_of_false (kind_of_token? read) (List.cons_ne_nil _ _)

/-- The end of the listing makes no difference to the tokens. -/
private theorem collect_ended (lexer : Lexer) (ended : Bool) (found : List Token) :
    ({ lexer with ended := ended } : Lexer).collect found =
      ((lexer.collect found).1, { (lexer.collect found).2 with ended := ended }) := by
  fun_induction collect lexer found with
  | case1 lexer found nothing =>
    have settled : lexer.settle.rest = [] := token?_eq_none.1 nothing
    have same : ({ lexer with ended := ended } : Lexer).token? = none := token?_eq_none.2 settled
    exact collect_none same
  | case2 lexer found token after read ih =>
    obtain ⟨c, rest, settled, rfl, rfl⟩ := settled_of_token? read
    have settled : ({ lexer with ended := ended } : Lexer).settle.rest = c :: rest := settled
    rw [collect_some (token?_of_settled settled)]
    exact ih

private theorem ofLexer_ended (lexer : Lexer) (ended : Bool) :
    TokenStream.ofLexer { lexer with ended := ended } = TokenStream.ofLexer lexer := by
  simp only [TokenStream.ofLexer, collect_ended]

/-- Only a listing that has ended gives no answer. -/
private theorem ask_eq_none : (lexer.ask call).1 = none ↔ call = .next ∧ lexer.ended = true := by
  cases call with
  | next =>
    cases ended : lexer.ended <;> simp [ask, next?, ended]
  | nextToken => simp [ask]

/-- Where there is no answer nothing is read. -/
private theorem ask_eq_self : lexer.ask call = (none, lexer) ↔ call = .next ∧ lexer.ended = true := by
  constructor
  · intro unmoved
    exact ask_eq_none.1 (congrArg Prod.fst unmoved)
  · rintro ⟨rfl, ended⟩
    rw [ask, next?, if_pos ended]

/-- Both ways of asking give the same token and leave the same tokens. -/
private theorem ask_eq_some (h : ¬ (call = .next ∧ lexer.ended = true)) :
    (lexer.ask call).1 = some lexer.nextToken.1 ∧
      TokenStream.ofLexer (lexer.ask call).2 = TokenStream.ofLexer lexer.nextToken.2 := by
  cases call with
  | next =>
    have going : ¬ lexer.ended = true := fun ended => h ⟨rfl, ended⟩
    rw [ask, next?, if_neg going]
    exact ⟨rfl, ofLexer_ended _ _⟩
  | nextToken => exact ⟨rfl, rfl⟩

/-- A listing that has not ended goes on with the next token. -/
private theorem ask_next (going : lexer.ended = false) :
    (lexer.ask .next).1 = some lexer.nextToken.1 ∧
      TokenStream.ofLexer (lexer.ask .next).2 = TokenStream.ofLexer lexer.nextToken.2 := by
  refine ask_eq_some fun closed => ?_
  obtain ⟨-, ended⟩ := closed
  rw [going] at ended
  cases ended

/-- The listing ends with the end mark that it gives. -/
private theorem ended_ask : (lexer.ask call).2.ended = true ↔
    lexer.ended = true ∨ call = .next ∧ ∃ mark, (lexer.ask call).1 = some mark ∧ mark.kind = .endOfInput := by
  cases call with
  | next =>
    cases ended : lexer.ended <;> simp [ask, next?, ended]
  | nextToken =>
    obtain ⟨-, -, same⟩ := lexer.nextToken_eq
    simp [ask, same]

/-! ### Any calls -/

/-- What is given in answer to calls is what is left, in order, and then the end mark again and again. -/
private theorem answers_prefix (lexer : Lexer) (calls : List Call) :
    let left := TokenStream.ofLexer lexer
    (lexer.answers calls).1.reduceOption <+:
      left.tokens ++ List.replicate calls.length (Token.endMark left.finish) := by
  induction calls generalizing lexer with
  | nil => exact List.nil_prefix
  | cons call calls ih =>
    obtain ⟨first, behind, -⟩ := lexer.nextToken_eq
    simp only [answers, List.length_cons, List.replicate_succ']
    by_cases closed : call = .next ∧ lexer.ended = true
    · rw [ask_eq_self.2 closed, ← List.append_assoc]
      exact (ih lexer).trans (List.prefix_append _ _)
    · obtain ⟨answer, left⟩ := ask_eq_some closed
      have others := ih (lexer.ask call).2
      rw [left, behind] at others
      rw [answer, List.reduceOption_cons_of_some, first]
      cases tokens : (TokenStream.ofLexer lexer).tokens with
      | nil =>
        rw [tokens] at others
        rw [← List.replicate_succ', List.replicate_succ]
        exact (List.prefix_cons_inj _).2 others
      | cons token tokens =>
        rw [tokens] at others
        rw [← List.append_assoc]
        exact ((List.prefix_cons_inj _).2 others).trans (List.prefix_append _ _)

/-- The listing has ended behind calls if it had before them or has given the end mark since. -/
private theorem ended_answers (lexer : Lexer) (calls : List Call) :
    (lexer.answers calls).2.ended = true ↔
      lexer.ended = true ∨ MarkGiven calls (lexer.answers calls).1 := by
  induction calls generalizing lexer with
  | nil => simp [answers, MarkGiven]
  | cons call calls ih =>
    have own : MarkGiven (call :: calls) (lexer.answers (call :: calls)).1 ↔
        (call = .next ∧ ∃ mark, (lexer.ask call).1 = some mark ∧ mark.kind = .endOfInput) ∨
          MarkGiven calls ((lexer.ask call).2.answers calls).1 := by
      simp only [MarkGiven, answers, List.zip_cons_cons, List.mem_cons, Prod.mk.injEq, or_and_right, exists_or]
      simp only [eq_comm, and_assoc, exists_and_left]
    rw [own, ← or_assoc, ← ended_ask]
    exact ih (lexer.ask call).2

/-- A listing that has ended answers nothing more. -/
private theorem answers_ended (ended : lexer.ended = true) (more : Nat) :
    lexer.answers (List.replicate more .next) = (List.replicate more none, lexer) := by
  induction more with
  | zero => rfl
  | succ more ih =>
    have unmoved : lexer.ask .next = (none, lexer) := ask_eq_self.2 ⟨rfl, ended⟩
    rw [List.replicate_succ, answers, unmoved, List.replicate_succ]
    simp only [ih]

/-- Asked for the listing alone, a reader gives the tokens that are left and the end mark, once each. -/
private theorem answers_next {stream : TokenStream} (going : lexer.ended = false)
    (left : TokenStream.ofLexer lexer = stream) (more : Nat) :
    (lexer.answers (List.replicate (stream.toList.length + more) .next)).1 =
      stream.toList.map some ++ List.replicate more none := by
  obtain ⟨tokens, finish⟩ := stream
  induction tokens generalizing lexer with
  | nil =>
    obtain ⟨answer, -⟩ := ask_next going
    obtain ⟨first, -, -⟩ := lexer.nextToken_eq
    have mark : lexer.nextToken.1.kind = .endOfInput := lexer.nextToken_kind.2 (congrArg TokenStream.tokens left)
    have closed := ended_ask.2 (.inr ⟨rfl, _, answer, mark⟩)
    rw [left] at first
    have only : TokenStream.toList ⟨[], finish⟩ = [Token.endMark finish] := rfl
    rw [only, List.length_singleton, Nat.add_comm, List.replicate_succ]
    simp only [answers, answers_ended closed, answer, first]
    rfl
  | cons token tokens ih =>
    obtain ⟨answer, behind⟩ := ask_next going
    obtain ⟨first, rest, -⟩ := lexer.nextToken_eq
    have proper : lexer.nextToken.1.kind ≠ .endOfInput := by
      rw [Ne, nextToken_kind, left]
      exact List.cons_ne_nil _ _
    have goes : (lexer.ask .next).2.ended = false := by
      rw [← Bool.not_eq_true, ended_ask, answer]
      simpa [going] using proper
    rw [left] at first rest
    have others := ih goes (behind.trans rest)
    have longer : TokenStream.toList ⟨token :: tokens, finish⟩ = token :: TokenStream.toList ⟨tokens, finish⟩ := rfl
    rw [longer, List.length_cons, Nat.add_right_comm, List.replicate_succ]
    simp only [answers, answer, others, first]
    rfl

/-- A reader has one place in its text, however it is asked. The tokens that it gives are those of the listing in
their order and then the end mark for ever, always at the end of the text. Behind any calls the only one without an
answer is that for the listing after the listing has given the end mark, and that call leaves the reader as it
is. -/
theorem answers_share_place (text : String) (calls : List Call) :
    let listing := (ofText text).listing.1
    let mark := Token.endMark (Location.start.after text.toList)
    let given := ((ofText text).answers calls).1
    let reader := ((ofText text).answers calls).2
    listing = (TokenStream.ofText text).tokens ++ [mark] ∧
      (∀ more, ((ofText text).answers (List.replicate (listing.length + more) .next)).1 =
        listing.map some ++ List.replicate more none) ∧
      given.reduceOption <+: listing ++ List.replicate calls.length mark ∧
      ∀ call, ((reader.ask call).1 = none ↔ call = .next ∧ MarkGiven calls given) ∧
        (reader.ask call = (none, reader) ↔ call = .next ∧ MarkGiven calls given) := by
  intro listing mark given reader
  have finish : Token.endMark (TokenStream.ofText text).finish = mark :=
    congrArg Token.endMark (TokenStream.finish_ofText text)
  have listed : listing = (TokenStream.ofText text).tokens ++ [mark] := congrArg (_ ++ [·]) finish
  have closed : reader.ended = true ↔ MarkGiven calls given := by
    simp [reader, given, ended_answers, ofText]
  refine ⟨listed, answers_next rfl rfl, ?_, fun call => ?_⟩
  · have inOrder : given.reduceOption <+:
        (TokenStream.ofText text).tokens ++ List.replicate calls.length mark := finish ▸ answers_prefix _ calls
    have again : [mark] ++ List.replicate calls.length mark = List.replicate calls.length mark ++ [mark] :=
      List.replicate_succ'
    rw [listed, List.append_assoc, again, ← List.append_assoc]
    exact inOrder.trans (List.prefix_append _ _)
  · rw [ask_eq_none, ask_eq_self, closed]
    exact ⟨Iff.rfl, Iff.rfl⟩

/-- The listing ends after its own end mark only, and the other way of asking does not. -/
example : ((ofText "x ").answers [.nextToken, .nextToken, .next, .next, .nextToken]).1.map (Option.map Token.kind) =
    [some .identifier, some .endOfInput, some .endOfInput, none, some .endOfInput] := by decide +kernel

end Lexer
end LittleScript

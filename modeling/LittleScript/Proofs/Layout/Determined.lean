import LittleScript.Proofs.Layout.Opening
import LittleScript.Proofs.Layout.Spelling

/-!
Trees that are determined by the words of their layout. What the words do not mark is the end of a callee and
the end of a statement: both are told by what may stand behind them.
-/

namespace LittleScript

private theorem toList_toString (n : Int) :
    (toString n).toList = (if n < 0 then ['-'] else []) ++ Nat.toDigits 10 n.natAbs := by
  rw [Int.toString_eq_repr, Int.repr_eq_if]
  by_cases negative : n < 0
  · have size : (-n).toNat = n.natAbs := by omega
    rw [if_neg (Int.not_le.2 negative), if_pos negative, String.toList_append, Nat.toList_repr, size]
    rfl
  · have size : n.toNat = n.natAbs := by omega
    rw [if_pos (Int.not_lt.1 negative), if_neg negative, Nat.toList_repr, size]
    rfl

/-- No digit is a sign, so a number is told by its text. -/
private theorem int_eq_of_toString {m n : Int} (same : toString m = toString n) : m = n := by
  have sign (k : Int) : (toString k).toList.head? = some '-' ↔ k < 0 := by
    rw [toList_toString]
    by_cases negative : k < 0
    · rw [if_pos negative]
      exact iff_of_true rfl negative
    · rw [if_neg negative, List.nil_append]
      refine iff_of_false (fun first => ?_) negative
      have digit := Nat.isDigit_of_mem_toDigits (by decide) (by decide) (List.mem_of_mem_head? first)
      exact absurd digit (by decide)
  have signs : m < 0 ↔ n < 0 := by rw [← sign, ← sign, same]
  have digits := congrArg String.toList same
  simp only [toList_toString, signs, List.append_cancel_left_eq] at digits
  have size : m.natAbs = n.natAbs := by rw [← Numeral.value_toDigits m.natAbs, digits, Numeral.value_toDigits]
  omega
theorem Name.alike_of_text {m n : Name} (own : m.Faithful) (faithful : n.Faithful) (same : m.text = n.text) :
    m.alike n = true := by
  have spelled : m.token.spelling = n.token.spelling := by
    rw [own, faithful, same]
  rw [Name.alike, Token.alike_of_spelling spelled, same]
  simp

private theorem Name.allAlike_of_forall₂ {as bs : List Name}
    (h : List.Forall₂ (fun a b => a.alike b = true) as bs) : Name.allAlike as bs = true := by
  induction h with
  | nil => rfl
  | cons first _ ih => simp only [Name.allAlike, first, ih, Bool.and_true]

private theorem Expression.allAlike_of_forall₂ {as bs : List Expression}
    (h : List.Forall₂ (fun a b => a.alike b = true) as bs) : Expression.allAlike as bs = true := by
  induction h with
  | nil => simp only [Expression.allAlike]
  | cons first _ ih => simp only [Expression.allAlike, first, ih, Bool.and_true]

private theorem Expression.allFaithful_iff {es : List Expression} :
    Expression.AllFaithful es ↔ ∀ e ∈ es, e.Faithful := by
  induction es with
  | nil => simp [Expression.AllFaithful]
  | cons e es ih => rw [Expression.AllFaithful, ih, List.forall_mem_cons]

namespace Layout

/-- As long as what stands behind may stand there, the words of the layout tell the tree and where it ends. -/
def Determined {α : Type} (layout : α → List Piece) (alike : α → α → Bool) (faithful : α → Prop)
    (ends : Option Kind → Prop) (a : α) : Prop :=
  ∀ b, faithful b → ∀ rest others, ends (firstKind rest) → ends (firstKind others) →
    words (layout a) ++ rest = words (layout b) ++ others → alike a b = true ∧ rest = others

abbrev ExpressionDetermined : Expression → Prop :=
  Determined expression Expression.alike Expression.Faithful (· ≠ some .leftParen)

abbrev HeadDetermined : Expression → Prop :=
  Determined expression Expression.alike (fun e => e.Faithful ∧ e.held = 0) (fun _ => True)

abbrev InsideDetermined : Expression → Prop :=
  Determined inside Expression.alike Expression.Faithful (· = some .rightParen)

abbrev ArgumentsDetermined : List Expression → Prop :=
  Determined (fun es => separated (expressions es)) Expression.allAlike Expression.AllFaithful
    (· = some .rightParen)

abbrev BlockDetermined : Block → Prop := Determined block Block.alike Block.Faithful fun _ => True

abbrev AlternativeDetermined : Option Block → Prop :=
  Determined alternative Block.bothAlike Block.OptionFaithful (· ≠ some .elseWord)

abbrev StatementDetermined : Statement → Prop :=
  Determined statement Statement.alike Statement.Faithful (· ≠ some .elseWord)

abbrev StatementsDetermined : List Statement → Prop :=
  Determined spaced Statement.allAlike Statement.AllFaithful (· ∈ [none, some .rightBrace])

/-! ### Lists with commas -/

private def continued {α : Type} (layout : α → List Piece) (items : List α) : List (Kind × String) :=
  items.flatMap fun item => (.comma, Kind.comma.symbol) :: words (layout item)

section
variable {α : Type} {layout : α → List Piece} {alike : α → α → Bool} {faithful : α → Prop}
  {rest others : List (Kind × String)}

private theorem words_separated (layout : α → List Piece) (item : α) (items : List α) :
    words (separated ((item :: items).map layout)) = words (layout item) ++ continued layout items := by
  induction items generalizing item with
  | nil => exact (List.append_nil _).symm
  | cons next items ih =>
    have later := ih next
    rw [List.map_cons] at later
    rw [List.map_cons, List.map_cons, separated, words_append, words_append, later, List.append_assoc]
    · rfl
    · exact List.cons_ne_nil _ _

private theorem firstKind_continued (items : List α) (closed : firstKind rest = some .rightParen) :
    firstKind (continued layout items ++ rest) ∈ [some .comma, some .rightParen] := by
  cases items with
  | nil =>
    have first : firstKind (continued layout [] ++ rest) = some .rightParen := closed
    rw [first]
    decide
  | cons item items => exact List.mem_cons_self

private theorem continued_determined {as bs : List α}
    (items : ∀ a ∈ as, Determined layout alike faithful (· ≠ some .leftParen) a) (all : ∀ b ∈ bs, faithful b)
    (closed : firstKind rest = some .rightParen) (closed' : firstKind others = some .rightParen)
    (same : continued layout as ++ rest = continued layout bs ++ others) :
    List.Forall₂ (fun a b => alike a b = true) as bs ∧ rest = others := by
  induction as generalizing bs with
  | nil =>
    cases bs with
    | nil => exact ⟨.nil, same⟩
    | cons b bs =>
      have same : rest = continued layout (b :: bs) ++ others := same
      rw [same] at closed
      cases closed
  | cons a as ih =>
    cases bs with
    | nil =>
      have same : continued layout (a :: as) ++ rest = others := same
      rw [← same] at closed'
      cases closed'
    | cons b bs =>
      obtain ⟨first, later⟩ := List.forall_mem_cons.1 items
      obtain ⟨good, allGood⟩ := List.forall_mem_cons.1 all
      have open' : ∀ k ∈ [some Kind.comma, some .rightParen], k ≠ some .leftParen := by decide
      have inner : words (layout a) ++ (continued layout as ++ rest) =
          words (layout b) ++ (continued layout bs ++ others) := by
        rw [← List.append_assoc, ← List.append_assoc]
        exact (List.cons.inj same).2
      obtain ⟨one, behind⟩ := first b good _ _ (open' _ (firstKind_continued as closed))
        (open' _ (firstKind_continued bs closed')) inner
      obtain ⟨many, ended⟩ := ih later allGood behind
      exact ⟨.cons one many, ended⟩

/-- Lists with commas are told apart by their items, none of which begins like what closes the list. -/
private theorem separated_determined {as bs : List α}
    (items : ∀ a ∈ as, Determined layout alike faithful (· ≠ some .leftParen) a)
    (starts : ∀ a, faithful a → ∀ rest, firstKind (words (layout a) ++ rest) ≠ some .rightParen)
    (own : ∀ a ∈ as, faithful a) (all : ∀ b ∈ bs, faithful b)
    (closed : firstKind rest = some .rightParen) (closed' : firstKind others = some .rightParen)
    (same : words (separated (as.map layout)) ++ rest = words (separated (bs.map layout)) ++ others) :
    List.Forall₂ (fun a b => alike a b = true) as bs ∧ rest = others := by
  cases as with
  | nil =>
    cases bs with
    | nil => exact ⟨.nil, same⟩
    | cons b bs =>
      have same : rest = words (separated ((b :: bs).map layout)) ++ others := same
      rw [same, words_separated, List.append_assoc] at closed
      exact absurd closed (starts b (all b List.mem_cons_self) _)
  | cons a as =>
    cases bs with
    | nil =>
      have same : words (separated ((a :: as).map layout)) ++ rest = others := same
      rw [← same, words_separated, List.append_assoc] at closed'
      exact absurd closed' (starts a (own a List.mem_cons_self) _)
    | cons b bs =>
      apply continued_determined items all closed closed'
      rw [words_separated, words_separated] at same
      exact congrArg ((.comma, Kind.comma.symbol) :: ·) same

end

private theorem expressions_eq_map (es : List Expression) : expressions es = es.map expression := by
  induction es with
  | nil => rfl
  | cons e es ih => rw [expressions, ih, List.map_cons]

/-! ### Expressions -/

section
variable {rest others : List (Kind × String)}

private theorem calls_determined {as bs : List (Token × List Expression)}
    (told : ∀ call ∈ as, call.1.Plain .leftParen ∧ ArgumentsDetermined call.2) (all : FaithfulCalls bs)
    (ends : firstKind rest ≠ some .leftParen) (ends' : firstKind others ≠ some .leftParen)
    (same : words (argumentLists as) ++ rest = words (argumentLists bs) ++ others) :
    List.Forall₂ (fun a b => a.1.alike b.1 = true ∧ Expression.allAlike a.2 b.2 = true) as bs ∧
      rest = others := by
  induction as generalizing bs with
  | nil =>
    cases bs with
    | nil => exact ⟨.nil, same⟩
    | cons b bs =>
      have same : rest = words (argumentLists (b :: bs)) ++ others := same
      rw [same] at ends
      exact absurd rfl ends
  | cons a as ih =>
    cases bs with
    | nil =>
      have same : words (argumentLists (a :: as)) ++ rest = others := same
      rw [← same] at ends'
      exact absurd rfl ends'
    | cons b bs =>
      obtain ⟨⟨plain, first⟩, later⟩ := List.forall_mem_cons.1 told
      obtain ⟨⟨plain', faithful⟩, faithfulLater⟩ := List.forall_mem_cons.1 all
      simp only [argumentLists, List.cons_append, List.nil_append, List.append_assoc, words_sign, words_append,
        List.cons.injEq, true_and] at same
      obtain ⟨arguments, behind⟩ := first b.2 faithful _ _ rfl rfl same
      obtain ⟨many, ended⟩ := ih later faithfulLater (List.cons.inj behind).2
      exact ⟨.cons ⟨Token.alike_of_spelling (plain.trans plain'.symm), arguments⟩ many, ended⟩

/-- With its calls behind it an expression ends where no other call follows. -/
private theorem called_determined {e : Expression} (head : HeadDetermined e) {as : List (Token × List Expression)}
    (told : ∀ call ∈ as, call.1.Plain .leftParen ∧ ArgumentsDetermined call.2) :
    ExpressionDetermined (e.called as) := by
  intro b faithful rest others ends ends' same
  obtain ⟨callee, bs, rfl, single⟩ := b.exists_called
  obtain ⟨own, all⟩ := Expression.faithful_called.1 faithful
  rw [Expression.layout_called, Expression.layout_called, words_append, words_append, List.append_assoc,
    List.append_assoc] at same
  obtain ⟨alike, behind⟩ := head callee ⟨own, single⟩ _ _ trivial trivial same
  obtain ⟨many, ended⟩ := calls_determined told all ends ends' behind
  exact ⟨Expression.alike_called alike many, ended⟩

/-- Whatever is not a unary operation does not begin with an operator between its parentheses. -/
private theorem firstKind_inside {e : Expression} (faithful : e.Faithful)
    (other : ∀ token operator operand, e ≠ .unary token operator operand) (operator : UnaryOperator)
    (rest : List (Kind × String)) : firstKind (words (inside e) ++ rest) ≠ some operator.kind := by
  have foreign : ∀ f : Expression, some f.opening ≠ some operator.kind := by
    intro f same
    have opening := f.opening_mem
    rw [Option.some.inj same] at opening
    revert opening
    cases operator <;> decide
  cases e with
  | unary token operator operand => exact absurd rfl (other token operator operand)
  | binary token operator left right =>
    rw [inside, List.append_assoc, words_append, List.append_assoc, firstKind_expression left faithful.2.1]
    exact foreign left
  | _ =>
    rw [inside_of_not_parenthesized rfl, firstKind_expression _ faithful]
    exact foreign _

theorem inside_unary {token : Token} {operator : UnaryOperator} {operand : Expression}
    (own : (Expression.unary token operator operand).Faithful) (told : ExpressionDetermined operand) :
    InsideDetermined (.unary token operator operand) := by
  intro b faithful rest others ends ends' same
  by_cases unary : ∃ token operator operand, b = .unary token operator operand
  · obtain ⟨token', operator', operand', rfl⟩ := unary
    simp only [inside, List.cons_append, words_sign, List.cons.injEq, Prod.mk.injEq] at same
    obtain ⟨⟨kind, -⟩, same⟩ := same
    obtain rfl := UnaryOperator.kind_injective kind
    obtain ⟨alike, ended⟩ := told operand' faithful.2 _ _ (by rw [ends]; decide) (by rw [ends']; decide) same
    have sameToken := Token.alike_of_spelling (Eq.trans own.1 (Eq.symm faithful.1))
    refine ⟨?_, ended⟩
    simp only [Expression.alike, sameToken, alike, decide_true, Bool.and_true]
  · have other := firstKind_inside faithful
      (fun token operator operand same => unary ⟨token, operator, operand, same⟩) operator others
    rw [← same] at other
    exact absurd rfl other

/-- An operator between operands neither calls nor closes. -/
private theorem firstKind_operator (operator : BinaryOperator) (literal : String) (rest : List (Kind × String)) :
    firstKind ((operator.kind, literal) :: rest) ∉ [some Kind.leftParen, some .rightParen] := by
  rw [firstKind_cons]
  cases operator <;> decide

private theorem not_call_of_operator {operator : BinaryOperator} {literal : String} :
    firstKind ((operator.kind, literal) :: rest) ≠ some .leftParen := fun same =>
  firstKind_operator operator literal rest (by rw [same]; decide)

private theorem not_closed_of_operator {operator : BinaryOperator} {literal : String} :
    firstKind ((operator.kind, literal) :: rest) ≠ some .rightParen := fun same =>
  firstKind_operator operator literal rest (by rw [same]; decide)

private theorem not_call_of_closed (closed : firstKind rest = some .rightParen) :
    firstKind rest ≠ some .leftParen := by
  rw [closed]
  decide

theorem inside_binary {token : Token} {operator : BinaryOperator} {left right : Expression}
    (own : (Expression.binary token operator left right).Faithful) (first : ExpressionDetermined left)
    (second : ExpressionDetermined right) : InsideDetermined (.binary token operator left right) := by
  intro b faithful rest others ends ends' same
  cases b with
  | unary token' operator' operand =>
    have other := firstKind_inside own (fun _ _ _ same => nomatch same) operator' rest
    rw [same] at other
    exact absurd rfl other
  | binary token' operator' left' right' =>
    rw [words_inside_binary, words_inside_binary] at same
    obtain ⟨alike, behind⟩ := first left' faithful.2.1 _ _ not_call_of_operator not_call_of_operator same
    obtain ⟨sign, operands⟩ := List.cons.inj behind
    obtain rfl := BinaryOperator.kind_injective (congrArg Prod.fst sign)
    obtain ⟨alike', ended⟩ :=
      second right' faithful.2.2 _ _ (not_call_of_closed ends) (not_call_of_closed ends') operands
    have sameToken := Token.alike_of_spelling (Eq.trans own.1 (Eq.symm faithful.1))
    refine ⟨?_, ended⟩
    simp only [Expression.alike, sameToken, alike, alike', decide_true, Bool.and_true]
  | _ =>
    rw [words_inside_binary] at same
    obtain ⟨-, behind⟩ := first _ faithful _ _ not_call_of_operator (not_call_of_closed ends') same
    rw [← behind] at ends'
    exact absurd ends' not_closed_of_operator

/-- Without parentheses of its own an expression is all that is between those of an `if`. -/
private theorem inside_plain {e : Expression} (plain : e.parenthesized = false) (own : e.Faithful)
    (told : ExpressionDetermined e) : InsideDetermined e := by
  intro b faithful rest others ends ends' same
  cases b with
  | unary token operator operand =>
    have other := firstKind_inside own (fun _ _ _ same => by rw [same] at plain; cases plain) operator rest
    rw [same] at other
    exact absurd rfl other
  | binary token operator left right =>
    rw [inside_of_not_parenthesized plain, words_inside_binary] at same
    obtain ⟨-, behind⟩ :=
      told left faithful.2.1 _ _ (not_call_of_closed ends) not_call_of_operator same
    rw [behind] at ends
    exact absurd ends not_closed_of_operator
  | _ =>
    rw [inside_of_not_parenthesized plain] at same
    exact told _ faithful _ _ (not_call_of_closed ends) (not_call_of_closed ends') same

/-- Expressions with the same words in front begin with the same kind of word. -/
private theorem opening_eq {e f : Expression} (own : e.Faithful) (faithful : f.Faithful)
    (same : words (expression e) ++ rest = words (expression f) ++ others) : e.opening = f.opening := by
  have first := firstKind_expression e own rest
  rw [same, firstKind_expression f faithful others] at first
  exact (Option.some.inj first).symm

private theorem head_of_parenthesized {e : Expression} (parens : e.parenthesized = true) (own : e.Faithful)
    (told : InsideDetermined e) : HeadDetermined e := by
  intro b ⟨faithful, single⟩ rest others _ _ same
  have opening : b.opening = .leftParen := by
    rw [← opening_eq own faithful same]
    cases e with
    | unary | binary => rfl
    | _ => cases parens
  have parens' : b.parenthesized = true := by
    cases b with
    | unary | binary => rfl
    | call => cases single
    | boolean token value => cases value <;> cases opening
    | _ => cases opening
  rw [expression_of_parenthesized parens, expression_of_parenthesized parens'] at same
  simp only [List.cons_append, List.nil_append, words_sign, words_append, List.append_assoc,
    List.cons.injEq, true_and] at same
  obtain ⟨alike, behind⟩ := told b faithful _ _ rfl rfl same
  exact ⟨alike, (List.cons.inj behind).2⟩

theorem head_name {name : Name} (own : (Expression.name name).Faithful) : HeadDetermined (.name name) := by
  intro b ⟨faithful, single⟩ rest others _ _ same
  have opening : .identifier = b.opening := opening_eq own faithful same
  cases b with
  | name other =>
    obtain ⟨word, ended⟩ := List.cons.inj same
    have text : name.text = other.text := congrArg Prod.snd word
    refine ⟨?_, ended⟩
    rw [Expression.alike]
    exact Name.alike_of_text own faithful text
  | call => cases single
  | boolean token value => cases value <;> cases opening
  | _ => cases opening

theorem head_integer {token : Token} {value : Int} (own : (Expression.integer token value).Faithful) :
    HeadDetermined (.integer token value) := by
  intro b ⟨faithful, single⟩ rest others _ _ same
  have opening : .integer = b.opening := opening_eq own faithful same
  cases b with
  | integer token' value' =>
    obtain ⟨word, ended⟩ := List.cons.inj same
    have digits : toString value = toString value' := congrArg Prod.snd word
    obtain rfl := int_eq_of_toString digits
    have sameToken := Token.alike_of_spelling (Eq.trans own (Eq.symm faithful))
    refine ⟨?_, ended⟩
    simp only [Expression.alike, sameToken, decide_true, Bool.and_true]
  | call => cases single
  | boolean token value => cases value <;> cases opening
  | _ => cases opening

theorem head_boolean {token : Token} {value : Bool} (own : (Expression.boolean token value).Faithful) :
    HeadDetermined (.boolean token value) := by
  intro b ⟨faithful, single⟩ rest others _ _ same
  have opening := opening_eq own faithful same
  cases b with
  | boolean token' value' =>
    obtain rfl : value = value' := by
      revert opening
      cases value <;> cases value' <;> simp [Expression.opening]
    obtain ⟨-, ended⟩ := List.cons.inj same
    have sameToken := Token.alike_of_spelling (Eq.trans own (Eq.symm faithful))
    refine ⟨?_, ended⟩
    simp only [Expression.alike, sameToken, decide_true, Bool.and_true]
  | call => cases single
  | _ => cases value <;> cases opening

/-- Parameters and body tell a function, be it an expression or a statement. -/
theorem function_determined {token token' : Token} {parameters parameters' : List Name} {body body' : Block}
    (own : ∀ name ∈ parameters, name.Faithful) (all : ∀ name ∈ parameters', name.Faithful)
    (told : BlockDetermined body) (faithful : body'.Faithful)
    (same : words (functionHead token parameters ++ block body) ++ rest =
      words (functionHead token' parameters' ++ block body') ++ others) :
    token.alike token' = true ∧ Name.allAlike parameters parameters' = true ∧ body.alike body' = true ∧
      rest = others := by
  simp only [functionHead, List.cons_append, List.nil_append, List.append_assoc, words_spelled, words_sign,
    words_append, List.cons.injEq, true_and] at same
  obtain ⟨keyword, same⟩ := same
  have item : ∀ name ∈ parameters, Determined (fun name => [Piece.named name]) Name.alike Name.Faithful
      (· ≠ some .leftParen) name := by
    intro name mem other faithful rest others _ _ same
    obtain ⟨word, ended⟩ := List.cons.inj same
    exact ⟨Name.alike_of_text (own name mem) faithful (congrArg Prod.snd word), ended⟩
  have starts : ∀ name : Name, name.Faithful → ∀ rest,
      firstKind (words [Piece.named name] ++ rest) ≠ some .rightParen := by
    intro name _ rest
    rw [words_named, List.cons_append, firstKind_cons]
    decide
  obtain ⟨names, behind⟩ := separated_determined item starts own all rfl rfl same
  obtain ⟨alike, ended⟩ := told body' faithful _ _ trivial trivial (List.cons.inj behind).2
  exact ⟨Token.alike_of_spelling keyword, Name.allAlike_of_forall₂ names, alike, ended⟩

theorem head_function {token : Token} {parameters : List Name} {body : Block}
    (own : (Expression.function token parameters body).Faithful) (told : BlockDetermined body) :
    HeadDetermined (.function token parameters body) := by
  intro b ⟨faithful, single⟩ rest others _ _ same
  have opening : .fnWord = b.opening := opening_eq own faithful same
  cases b with
  | function token' parameters' body' =>
    rw [expression, expression] at same
    obtain ⟨sameToken, names, alike, ended⟩ :=
      function_determined own.2.1 faithful.2.1 told faithful.2.2 same
    refine ⟨?_, ended⟩
    simp only [Expression.alike, sameToken, names, alike, Bool.and_true]
  | call => cases single
  | boolean token value => cases value <;> cases opening
  | _ => cases opening

end

/-- The expression is told from others with any calls behind it and between the parentheses of an `if`. -/
structure Told (e : Expression) : Prop where
  called : ∀ calls, (∀ call ∈ calls, call.1.Plain .leftParen ∧ ArgumentsDetermined call.2) →
    ExpressionDetermined (e.called calls)
  inside : InsideDetermined e

section
variable {e : Expression}

theorem Told.determined (h : Told e) : ExpressionDetermined e :=
  h.called [] fun _ none => absurd none List.not_mem_nil

/-- An expression without calls behind it. -/
private theorem determined_of_head (head : HeadDetermined e) : ExpressionDetermined e := by
  have uncalled : ∀ call ∈ ([] : List (Token × List Expression)),
      call.1.Plain .leftParen ∧ ArgumentsDetermined call.2 := by simp
  exact called_determined head uncalled

theorem told_of_head (plain : e.parenthesized = false) (own : e.Faithful) (head : HeadDetermined e) :
    Told e where
  called _ told := called_determined head told
  inside := inside_plain plain own (determined_of_head head)

theorem told_of_inside (parens : e.parenthesized = true) (own : e.Faithful) (told : InsideDetermined e) :
    Told e where
  called _ arguments := called_determined (head_of_parenthesized parens own told) arguments
  inside := told

/-- A call is one more call behind its callee. -/
theorem told_call {token : Token} {callee : Expression} {arguments : List Expression}
    (own : (Expression.call token callee arguments).Faithful) (told : Told callee)
    (all : ArgumentsDetermined arguments) : Told (.call token callee arguments) := by
  have called : ∀ calls, (∀ call ∈ calls, call.1.Plain .leftParen ∧ ArgumentsDetermined call.2) →
      ExpressionDetermined ((Expression.call token callee arguments).called calls) := by
    intro calls behind
    exact told.called ((token, arguments) :: calls) (List.forall_mem_cons.2 ⟨⟨own.1, all⟩, behind⟩)
  exact ⟨called, inside_plain rfl own (called [] fun _ none => absurd none List.not_mem_nil)⟩

theorem arguments_determined {es : List Expression} (own : Expression.AllFaithful es)
    (told : ∀ e ∈ es, Told e) : ArgumentsDetermined es := by
  intro bs faithful rest others closed closed' same
  simp only [expressions_eq_map] at same
  have starts : ∀ e : Expression, e.Faithful → ∀ rest,
      firstKind (words (expression e) ++ rest) ≠ some .rightParen := by
    intro e faithful rest same
    have opening := e.opening_mem
    rw [firstKind_expression e faithful] at same
    rw [Option.some.inj same] at opening
    exact absurd opening (by decide)
  obtain ⟨many, ended⟩ := separated_determined (fun e mem => (told e mem).determined) starts
    (Expression.allFaithful_iff.1 own) (Expression.allFaithful_iff.1 faithful) closed closed' same
  exact ⟨Expression.allAlike_of_forall₂ many, ended⟩

end

end Layout
end LittleScript

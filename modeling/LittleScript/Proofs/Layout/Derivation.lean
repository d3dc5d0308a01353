import LittleScript.Proofs.Grammar.Beginning
import LittleScript.Proofs.Layout.Spelling

/-!
What is spelled like the layout of a tree derives that tree again, with exactly the levels that are
counted for it.
-/

namespace LittleScript

namespace Layout

open Grammar

/-- Only unary and binary expressions have parentheses of their own. -/
theorem condition_eq (guard : Expression) (layout : List Piece) :
    condition guard layout =
      if guard.parenthesized then layout else [.sign .leftParen] ++ layout ++ [.sign .rightParen] := by
  cases guard <;> rfl

private theorem derives_eq {phrase : Phrase} {tokens : List Token} {low high : Nat}
    (h : Derives phrase tokens low) (same : low = high) : Derives phrase tokens high := same ▸ h

/-- A primary is a chain without links in every layer, also in that of calls. -/
private theorem derives_call {tree : Expression} {tokens : List Token} {peak : Nat}
    (h : Derives (.expression .primary tree 0) tokens peak) :
    Derives (.expression .call tree 0) tokens peak := .lift h

def ReadsExpression (e : Expression) : Prop :=
  ∀ tokens, Spells tokens (expression e) → ∃ copy : Expression, copy.CopyOf e ∧
    Derives (.expression .call copy e.held) tokens e.peak

def ReadsCondition (e : Expression) : Prop :=
  ∀ tokens, Spells tokens (condition e (expression e)) → ∃ (copy : Expression) (opening closing : Token)
    (inside : List Token), copy.CopyOf e ∧ tokens = opening :: (inside ++ [closing]) ∧
      opening.kind = .leftParen ∧ closing.kind = .rightParen ∧
      Derives (.whole copy) inside (if e.parenthesized then e.peak else 1 + e.peak)

section
variable {e : Expression} {tokens : List Token}

/-- A chain in the layer of calls is a whole expression. -/
private theorem derives_whole {copy : Expression} {held peak : Nat}
    (h : Derives (.expression .call copy held) tokens peak) : Derives (.whole copy) tokens (1 + peak) := by
  rw [Nat.add_comm]
  exact .whole (.lift (.lift (.lift (.lift (.lift h)))))

/-- An expression without parentheses of its own is a condition in those of the `if`. -/
private theorem readsCondition_of_reads (own : e.parenthesized = false) (h : ReadsExpression e) :
    ReadsCondition e := by
  intro tokens spelled
  rw [condition_eq, own, if_neg Bool.false_ne_true, List.append_assoc, List.cons_append,
    List.nil_append] at spelled
  obtain ⟨opening, rest, rfl, opens, spelled⟩ := spelled.word
  obtain ⟨inside, back, rfl, within, last⟩ := spelled.append
  obtain ⟨closing, rfl, closes⟩ := last.last
  obtain ⟨copy, same, derived⟩ := h inside within
  refine ⟨copy, opening, closing, inside, same, rfl, Token.kind_of_spelling opens,
    Token.kind_of_spelling closes, ?_⟩
  rw [own, if_neg Bool.false_ne_true]
  exact derives_whole derived

/-- An expression with parentheses of its own is read as a group. -/
private theorem reads_of_readsCondition (own : e.parenthesized = true) (chain : e.held = 0)
    (h : ReadsCondition e) : ReadsExpression e := by
  intro tokens spelled
  have spelled : Spells tokens (condition e (expression e)) := by
    rw [condition_eq, own, if_pos rfl]
    exact spelled
  obtain ⟨copy, opening, closing, inside, same, rfl, opens, closes, derived⟩ := h tokens spelled
  rw [own, if_pos rfl] at derived
  rw [chain]
  exact ⟨copy, same, .lift (.group opens derived closes)⟩

end

/-- Names with commas between them. -/
private theorem derives_parameters (names : List Name) (tokens : List Token)
    (spelled : Spells tokens (separated (names.map fun name => [.named name]))) :
    ∃ copies, Parameters copies tokens ∧
      (copies.map fun name => [Piece.named name]) = names.map (fun name => [Piece.named name]) ∧
      ((∀ name ∈ names, name.Faithful) → Name.allAlike copies names = true) := by
  induction names generalizing tokens with
  | nil =>
    obtain rfl := spelled.nil
    exact ⟨[], .none, rfl, fun _ => rfl⟩
  | cons name names ih =>
    cases names with
    | nil =>
      obtain ⟨token, rfl, same⟩ := spelled.last
      have named := Name.named_ofToken same
      have nameAlike := Name.alike_ofToken same
      refine ⟨[Name.ofToken token], .last (Token.kind_of_spelling same), ?_, fun faithful => ?_⟩
      · rw [List.map_singleton, List.map_singleton, named]
      · rw [Name.allAlike, nameAlike (faithful name List.mem_cons_self)]
        rfl
    | cons next names =>
      obtain ⟨token, rest, rfl, same, spelled⟩ := spelled.word
      obtain ⟨comma, rest, rfl, commas, spelled⟩ := spelled.word
      have named := Name.named_ofToken same
      have nameAlike := Name.alike_ofToken same
      obtain ⟨others, derived, layouts, allAlike⟩ := ih rest spelled.gap
      have proper : others ≠ [] := by
        rintro rfl
        cases layouts
      refine ⟨Name.ofToken token :: others, .more (Token.kind_of_spelling same)
        (Token.kind_of_spelling commas) derived proper, ?_, fun faithful => ?_⟩
      · rw [List.map_cons, List.map_cons, named, layouts]
      · rw [Name.allAlike, nameAlike (faithful name List.mem_cons_self),
          allAlike fun other mem => faithful other (List.mem_cons_of_mem name mem)]
        rfl

def ReadsBlock (b : Block) : Prop :=
  ∀ tokens, Spells tokens (block b) → ∃ copy : Block, copy.CopyOf b ∧ Derives (.block copy) tokens b.peak

/-- A function, as an expression and as a statement. -/
private theorem derives_function {token : Token} {parameters : List Name} {body : Block} {tokens : List Token}
    (word : token.Plain .fnWord) (inside : ReadsBlock body)
    (spelled : Spells tokens (functionHead token parameters ++ block body)) :
    ∃ (copy : Token) (names : List Name) (other : Block), copy.spelling = token.spelling ∧
      functionHead copy names = functionHead token parameters ∧ other.CopyOf body ∧
      ((∀ name ∈ parameters, name.Faithful) → Name.allAlike names parameters = true) ∧
      Derives (.function copy names other) tokens body.peak := by
  obtain ⟨front, back, rfl, head, last⟩ := spelled.append
  simp only [functionHead, List.cons_append, List.nil_append] at head
  obtain ⟨copy, rest, rfl, same, head⟩ := head.word
  obtain ⟨opening, rest, rfl, opens, head⟩ := head.word
  obtain ⟨listed, rest, rfl, names, head⟩ := head.append
  obtain ⟨closing, none, rfl, closes, head⟩ := head.word
  obtain rfl := head.gap.nil
  obtain ⟨copies, derived, layouts, alike⟩ := derives_parameters parameters listed names
  obtain ⟨other, copied, block⟩ := inside back last
  have kind : copy.kind = .fnWord := Token.kind_of_spelling (same.trans word)
  refine ⟨copy, copies, other, same, ?_, copied, alike, ?_⟩
  · rw [functionHead, functionHead, layouts, Piece.spelled_congr same]
  · have whole := Derives.function kind (Token.kind_of_spelling opens) derived
      (Token.kind_of_spelling closes) block
    rw [List.cons_append, List.cons_append, List.append_assoc]
    exact whole

/-- `= value ;` behind a name. -/
private theorem derives_assigned {value : Expression} {tokens : List Token} (right : ReadsExpression value)
    (spelled : Spells tokens (.gap :: .sign .assign :: .gap :: (expression value ++ [.sign .semicolon]))) :
    ∃ (sign stop : Token) (inside : List Token) (copy : Expression), tokens = sign :: (inside ++ [stop]) ∧
      sign.kind = .assign ∧ stop.kind = .semicolon ∧ copy.CopyOf value ∧
      Derives (.whole copy) inside (1 + value.peak) := by
  obtain ⟨sign, rest, rfl, assigns, spelled⟩ := spelled.gap.word
  obtain ⟨inside, rest, rfl, within, last⟩ := spelled.gap.append
  obtain ⟨stop, rfl, stops⟩ := last.last
  obtain ⟨copy, same, derived⟩ := right inside within
  exact ⟨sign, stop, inside, copy, rfl, Token.kind_of_spelling assigns, Token.kind_of_spelling stops, same,
    derives_whole derived⟩

private theorem readsExpression_name {name : Name} : ReadsExpression (.name name) := by
  intro tokens spelled
  obtain ⟨token, rfl, same⟩ := Spells.last spelled
  refine ⟨.name (Name.ofToken token), ⟨?_, rfl, fun faithful => ?_⟩,
    derives_call (.name (Token.kind_of_spelling same))⟩
  · rw [expression, expression, Name.named_ofToken same]
  · rw [Expression.alike]
    exact Name.alike_ofToken same faithful

private theorem readsExpression_integer {token : Token} {value : Int} (positive : 0 ≤ value)
    (fits : value ≤ Numeral.largest) : ReadsExpression (.integer token value) := by
  intro tokens spelled
  obtain ⟨n, rfl⟩ := Int.eq_ofNat_of_zero_le positive
  obtain ⟨copy, rfl, same⟩ := Spells.last spelled
  have literal : copy.literal = toString n := congrArg Prod.snd same
  have value : Numeral.value copy.literal.toList = n := by
    rw [literal, Nat.toString_eq_ofList_toDigits, String.toList_ofList, Numeral.value_toDigits]
  have derived := Derives.integer (Token.kind_of_spelling same) (by rw [value]; exact Int.ofNat_le.1 fits)
  rw [value] at derived
  refine ⟨.integer copy n, ⟨rfl, rfl, fun faithful => ?_⟩, derives_call derived⟩
  rw [Expression.alike, Bool.and_eq_true]
  exact ⟨Token.alike_of_spelling (same.trans (Eq.symm faithful)), decide_eq_true rfl⟩

private theorem readsExpression_boolean {token : Token} {value : Bool} :
    ReadsExpression (.boolean token value) := by
  intro tokens spelled
  obtain ⟨copy, rfl, same⟩ := Spells.last spelled
  refine ⟨.boolean copy value, ⟨rfl, rfl, fun faithful => ?_⟩,
    derives_call (.boolean value (Token.kind_of_spelling same))⟩
  rw [Expression.alike, Bool.and_eq_true]
  exact ⟨Token.alike_of_spelling (same.trans (Eq.symm faithful)), decide_eq_true rfl⟩

private theorem readsCondition_unary {token : Token} {operator : UnaryOperator} {operand : Expression}
    (right : ReadsExpression operand) : ReadsCondition (.unary token operator operand) := by
  intro tokens spelled
  simp only [condition, expression, List.cons_append, List.nil_append] at spelled
  obtain ⟨opening, rest, rfl, opens, spelled⟩ := spelled.word
  obtain ⟨sign, rest, rfl, same, spelled⟩ := spelled.word
  obtain ⟨inside, rest, rfl, within, last⟩ := spelled.append
  obtain ⟨closing, rfl, closes⟩ := last.last
  obtain ⟨copy, copied, derived⟩ := right inside within
  have unary := Derives.unary (Token.kind_of_spelling same) (.lift derived)
  refine ⟨.unary sign operator copy, opening, closing, sign :: inside, ⟨?_, rfl, fun faithful => ?_⟩, rfl,
    Token.kind_of_spelling opens, Token.kind_of_spelling closes, ?_⟩
  · rw [expression, expression, copied.layout]
  · have operandAlike := copied.alike faithful.2
    have signAlike := Token.alike_of_spelling (same.trans (Eq.symm faithful.1))
    simp only [Expression.alike, signAlike, operandAlike, decide_true, Bool.and_self]
  · exact derives_eq (.whole (.lift (.lift (.lift (.lift unary))))) (by
      simp only [Expression.parenthesized, if_true, Expression.peak]
      omega)

private theorem readsCondition_binary {token : Token} {operator : BinaryOperator} {left right : Expression}
    (first : ReadsExpression left) (second : ReadsExpression right) :
    ReadsCondition (.binary token operator left right) := by
  intro tokens spelled
  simp only [condition, expression, List.append_assoc, List.cons_append, List.nil_append] at spelled
  obtain ⟨opening, rest, rfl, opens, spelled⟩ := spelled.word
  obtain ⟨front, rest, rfl, spelledLeft, spelled⟩ := spelled.append
  obtain ⟨sign, rest, rfl, same, spelled⟩ := spelled.gap.word
  obtain ⟨back, rest, rfl, spelledRight, last⟩ := spelled.gap.append
  obtain ⟨closing, rfl, closes⟩ := last.last
  obtain ⟨copyLeft, copiedLeft, derivedLeft⟩ := first front spelledLeft
  obtain ⟨copyRight, copiedRight, derivedRight⟩ := second back spelledRight
  obtain ⟨layer, own⟩ := Layer.exists_mem_operators operator
  have call_le := Layer.higher_rank_le_call own
  have binary := Derives.binary (Token.kind_of_spelling same) own
    (derivedLeft.lower (Nat.le_trans (Layer.rank_le_higher layer) call_le)) (derivedRight.lower call_le)
  refine ⟨.binary sign operator copyLeft copyRight, opening, closing, front ++ sign :: back,
    ⟨?_, rfl, fun faithful => ?_⟩, ?_, Token.kind_of_spelling opens, Token.kind_of_spelling closes, ?_⟩
  · rw [expression, expression, copiedLeft.layout, copiedRight.layout]
  · have leftAlike := copiedLeft.alike faithful.2.1
    have rightAlike := copiedRight.alike faithful.2.2
    have signAlike := Token.alike_of_spelling (same.trans (Eq.symm faithful.1))
    simp only [Expression.alike, signAlike, leftAlike, rightAlike, decide_true, Bool.and_self]
  · rw [List.append_assoc, List.cons_append]
  · have whole := Derives.whole (binary.lower (Nat.zero_le _))
    refine derives_eq whole ?_
    simp only [Expression.parenthesized, if_true, Expression.peak]
    omega

def ReadsArguments (es : List Expression) : Prop :=
  ∀ tokens, Spells tokens (separated (expressions es)) → ∃ copies,
    expressions copies = expressions es ∧
    (Expression.AllFaithful es → Expression.allAlike copies es = true) ∧
    Derives (.arguments copies) tokens (Expression.argumentsPeak es)

private theorem readsArguments_nil : ReadsArguments [] := by
  intro tokens spelled
  obtain rfl := Spells.nil spelled
  exact ⟨[], rfl, fun _ => by rw [Expression.allAlike], .noArguments⟩

private theorem readsArguments_cons {e : Expression} {es : List Expression} (first : ReadsExpression e)
    (others : ReadsArguments es) : ReadsArguments (e :: es) := by
  intro tokens spelled
  cases es with
  | nil =>
    obtain ⟨copy, copied, derived⟩ := first tokens spelled
    refine ⟨[copy], ?_, fun faithful => ?_, derives_eq (.lastArgument (derives_whole derived)) ?_⟩
    · rw [expressions, expressions, copied.layout]
      rfl
    · rw [Expression.allAlike, copied.alike faithful.1, Expression.allAlike]
      rfl
    · exact (Nat.max_zero _).symm
  | cons next es =>
    rw [expressions, expressions, separated, List.append_assoc, List.cons_append, List.cons_append,
      List.nil_append] at spelled
    · obtain ⟨front, rest, rfl, spelledFirst, last⟩ := spelled.append
      obtain ⟨comma, back, rfl, commas, last⟩ := last.word
      obtain ⟨copy, copied, derived⟩ := first front spelledFirst
      obtain ⟨copies, layouts, alike, more⟩ := others back last.gap
      have proper : copies ≠ [] := by
        rintro rfl
        cases layouts
      refine ⟨copy :: copies, ?_, fun faithful => ?_,
        .moreArguments (derives_whole derived) (Token.kind_of_spelling commas) more proper⟩
      · rw [expressions, copied.layout, layouts]
        rfl
      · rw [Expression.allAlike, copied.alike faithful.1, alike faithful.2]
        rfl
    · exact List.cons_ne_nil _ _

private theorem readsExpression_call {token : Token} {callee : Expression} {arguments : List Expression}
    (left : ReadsExpression callee)
    (right : ReadsArguments arguments) : ReadsExpression (.call token callee arguments) := by
  intro tokens spelled
  simp only [expression, List.append_assoc, List.cons_append, List.nil_append] at spelled
  obtain ⟨front, rest, rfl, spelledCallee, spelled⟩ := spelled.append
  obtain ⟨opening, rest, rfl, opens, spelled⟩ := spelled.word
  obtain ⟨inside, rest, rfl, spelledArguments, last⟩ := spelled.append
  obtain ⟨closing, rfl, closes⟩ := last.last
  obtain ⟨copy, copied, derived⟩ := left front spelledCallee
  obtain ⟨copies, layouts, alike, arguments⟩ := right inside spelledArguments
  refine ⟨.call opening copy copies, ⟨?_, rfl, fun faithful => ?_⟩,
    .call (Token.kind_of_spelling opens) derived arguments (Token.kind_of_spelling closes)⟩
  · rw [expression, expression, copied.layout, layouts]
  · have calleeAlike := copied.alike faithful.2.1
    have argumentsAlike := alike faithful.2.2
    have tokenAlike := Token.alike_of_spelling (opens.trans (Eq.symm faithful.1))
    simp only [Expression.alike, tokenAlike, calleeAlike, argumentsAlike, Bool.and_self]

private theorem readsExpression_function {token : Token} {parameters : List Name} {body : Block}
    (word : token.Plain .fnWord) (inside : ReadsBlock body) :
    ReadsExpression (.function token parameters body) := by
  intro tokens spelled
  rw [expression] at spelled
  obtain ⟨copy, names, other, same, head, copied, alike, derived⟩ := derives_function word inside spelled
  refine ⟨.function copy names other, ⟨?_, rfl, fun faithful => ?_⟩, derives_call (.literal derived)⟩
  · rw [expression, expression, head, copied.layout]
  · have namesAlike := alike faithful.2.1
    have bodyAlike := copied.alike faithful.2.2
    simp only [Expression.alike, Token.alike_of_spelling same, namesAlike, bodyAlike, Bool.and_self]

def ReadsStatements (body : List Statement) : Prop :=
  ∀ tokens, Spells tokens (spaced body) → ∃ copies,
    spaced copies = spaced body ∧ program copies = program body ∧
    (Statement.AllFaithful body → Statement.allAlike copies body = true) ∧
    headKind tokens ≠ .elseWord ∧
    ∀ inBlock, Derives (.statements inBlock copies) tokens (Statement.sequencePeak body)

def ReadsStatement (s : Statement) : Prop :=
  ∀ tokens, Spells tokens (statement s) → ∃ copy : Statement, copy.CopyOf s ∧
    Derives (.statement copy) tokens s.peak

private theorem readsStatements_nil : ReadsStatements [] := by
  intro tokens spelled
  obtain rfl := Spells.nil spelled
  exact ⟨[], rfl, rfl, fun _ => by rw [Statement.allAlike], by decide, fun _ => .noStatements⟩

private theorem readsStatements_cons {s : Statement} {body : List Statement} (first : ReadsStatement s)
    (others : ReadsStatements body) : ReadsStatements (s :: body) := by
  intro tokens spelled
  rw [spaced, List.append_assoc] at spelled
  obtain ⟨front, back, rfl, spelledFirst, last⟩ := spelled.append
  obtain ⟨copy, copied, derived⟩ := first front spelledFirst
  obtain ⟨copies, layouts, programs, alike, follows, more⟩ := others back last.gap
  refine ⟨copy :: copies, ?_, ?_, fun faithful => ?_, ?_, fun inBlock => ?_⟩
  · rw [spaced, spaced, copied.layout, layouts]
  · rw [program, List.flatMap_cons, copied.layout, program, List.flatMap_cons]
    exact congrArg _ programs
  · rw [Statement.allAlike, copied.alike faithful.1, alike faithful.2]
    rfl
  · -- A statement does not begin with `else`.
    obtain ⟨proper, begins⟩ := derived.begins
    rw [headKind_append proper]
    intro word
    rw [word] at begins
    exact absurd begins (by decide)
  · exact .statement derived (more inBlock) fun _ => follows

private theorem readsBlock_braced {token : Token} {body : List Statement} (inside : ReadsStatements body) :
    ReadsBlock (.braced token body) := by
  intro tokens spelled
  simp only [block, List.cons_append, List.nil_append] at spelled
  obtain ⟨opening, rest, rfl, opens, spelled⟩ := spelled.word
  obtain ⟨front, rest, rfl, spelledBody, last⟩ := spelled.gap.append
  obtain ⟨closing, rfl, closes⟩ := last.last
  obtain ⟨copies, layouts, -, alike, -, derived⟩ := inside front spelledBody
  refine ⟨.braced opening copies, ⟨?_, fun faithful => ?_⟩, derives_eq
    (.block (Token.kind_of_spelling opens) (derived true) (Token.kind_of_spelling closes)) ?_⟩
  · rw [block, block, layouts]
  · have tokenAlike := Token.alike_of_spelling (opens.trans (Eq.symm faithful.1))
    rw [Block.alike, tokenAlike, alike faithful.2]
    rfl
  · rw [Block.peak, Nat.add_comm]

def ReadsAlternative (other : Option Block) : Prop :=
  ∀ tokens, Spells tokens (alternative other) → ∃ copy : Option Block,
    alternative copy = alternative other ∧
    (Block.OptionFaithful other → Block.bothAlike copy other = true) ∧
    Derives (.alternative copy) tokens (Block.alternativePeak other)

private theorem readsAlternative_none : ReadsAlternative none := by
  intro tokens spelled
  rw [alternative] at spelled
  obtain rfl := spelled.nil
  exact ⟨none, rfl, fun _ => by rw [Block.bothAlike], .noAlternative⟩

private theorem readsAlternative_some {other : Block} (inside : ReadsBlock other) :
    ReadsAlternative (some other) := by
  intro tokens spelled
  rw [alternative, List.cons_append, List.cons_append, List.cons_append, List.nil_append] at spelled
  obtain ⟨word, rest, rfl, same, spelled⟩ := spelled.gap.word
  obtain ⟨copy, copied, derived⟩ := inside rest spelled.gap
  refine ⟨some copy, ?_, fun faithful => ?_, .otherwise (Token.kind_of_spelling same) derived⟩
  · rw [alternative, alternative, copied.layout]
  · rw [Block.bothAlike]
    exact copied.alike faithful

private theorem readsStatement_binding {token : Token} {name : Name} {value : Expression}
    (plain : token.Plain .letWord) (right : ReadsExpression value) :
    ReadsStatement (.binding token name value) := by
  intro tokens spelled
  simp only [statement, List.cons_append, List.nil_append] at spelled
  obtain ⟨word, rest, rfl, sameWord, spelled⟩ := spelled.word
  obtain ⟨copyName, rest, rfl, sameName, spelled⟩ := spelled.gap.word
  obtain ⟨sign, stop, inside, copy, rfl, assigns, stops, copied, derived⟩ := derives_assigned right spelled
  refine ⟨.binding word (Name.ofToken copyName) copy, ⟨?_, fun faithful => ?_⟩,
    .binding (Token.kind_of_spelling (sameWord.trans plain)) (Token.kind_of_spelling sameName) assigns
      derived stops⟩
  · rw [statement, statement, copied.layout, Piece.spelled_congr sameWord, Name.named_ofToken sameName]
  · have wordAlike : word.alike token = true := Token.alike_of_spelling sameWord
    have nameAlike := Name.alike_ofToken sameName faithful.2.1
    have valueAlike := copied.alike faithful.2.2
    simp only [Statement.alike, wordAlike, nameAlike, valueAlike, Bool.and_self]

private theorem readsStatement_answer {token : Token} {value : Expression} (plain : token.Plain .returnWord)
    (right : ReadsExpression value) : ReadsStatement (.answer token value) := by
  intro tokens spelled
  simp only [statement, List.cons_append, List.nil_append] at spelled
  obtain ⟨word, rest, rfl, sameWord, spelled⟩ := spelled.word
  obtain ⟨inside, rest, rfl, spelledValue, last⟩ := spelled.gap.append
  obtain ⟨stop, rfl, stops⟩ := last.last
  obtain ⟨copy, copied, derived⟩ := right inside spelledValue
  refine ⟨.answer word copy, ⟨?_, fun faithful => ?_⟩,
    .answer (Token.kind_of_spelling (sameWord.trans plain)) (derives_whole derived)
      (Token.kind_of_spelling stops)⟩
  · rw [statement, statement, copied.layout, Piece.spelled_congr sameWord]
  · have wordAlike : word.alike token = true := Token.alike_of_spelling sameWord
    have valueAlike := copied.alike faithful.2
    simp only [Statement.alike, wordAlike, valueAlike, Bool.and_self]

private theorem readsStatement_assignment {token : Token} {name : Name} {value : Expression}
    (right : ReadsExpression value) : ReadsStatement (.assignment token name value) := by
  intro tokens spelled
  simp only [statement, List.cons_append, List.nil_append] at spelled
  obtain ⟨copyName, rest, rfl, sameName, spelled⟩ := spelled.word
  obtain ⟨sign, stop, inside, copy, rfl, assigns, stops, copied, derived⟩ := derives_assigned right spelled
  refine ⟨.assignment copyName (Name.ofToken copyName) copy, ⟨?_, fun faithful => ?_⟩,
    .assignment (Token.kind_of_spelling sameName) assigns derived stops⟩
  · rw [statement, statement, copied.layout, Name.named_ofToken sameName]
  · have nameAlike := Name.alike_ofToken sameName faithful.2.1
    have tokenAlike : copyName.alike token = true :=
      Token.alike_of_spelling ((sameName.trans (Eq.symm faithful.2.1)).trans (Eq.symm faithful.1))
    have valueAlike := copied.alike faithful.2.2
    simp only [Statement.alike, tokenAlike, nameAlike, valueAlike, Bool.and_self]

private theorem readsStatement_conditional {token : Token} {guard : Expression} {consequence : Block}
    {other : Option Block} (test : ReadsCondition guard) (inside : ReadsBlock consequence)
    (otherwise : ReadsAlternative other) :
    ReadsStatement (.conditional token guard consequence other) := by
  intro tokens spelled
  simp only [statement, List.append_assoc, List.cons_append, List.nil_append] at spelled
  obtain ⟨word, rest, rfl, sameWord, spelled⟩ := spelled.word
  obtain ⟨front, rest, rfl, spelledGuard, spelled⟩ := spelled.gap.append
  obtain ⟨middle, back, rfl, spelledBlock, spelledOther⟩ := spelled.gap.append
  obtain ⟨copyGuard, opening, closing, within, copiedGuard, rfl, opens, closes, derivedGuard⟩ :=
    test front spelledGuard
  obtain ⟨copyBlock, copiedBlock, derivedBlock⟩ := inside middle spelledBlock
  obtain ⟨copyOther, layoutOther, alikeOther, derivedOther⟩ := otherwise back spelledOther
  refine ⟨.conditional word copyGuard copyBlock copyOther, ⟨?_, fun faithful => ?_⟩, ?_⟩
  · have layoutGuard : condition copyGuard (expression copyGuard) = condition guard (expression guard) := by
      rw [condition_eq, condition_eq, copiedGuard.parenthesized, copiedGuard.layout]
    rw [statement, statement, layoutGuard, copiedBlock.layout, layoutOther]
  · have wordAlike := Token.alike_of_spelling (sameWord.trans (Eq.symm faithful.1))
    have guardAlike := copiedGuard.alike faithful.2.1
    have blockAlike := copiedBlock.alike faithful.2.2.1
    have otherAlike := alikeOther faithful.2.2.2
    simp only [Statement.alike, wordAlike, guardAlike, blockAlike, otherAlike, Bool.and_self]
  · have whole := Derives.conditional (Token.kind_of_spelling sameWord) opens derivedGuard closes
      derivedBlock derivedOther
    rw [List.cons_append, List.append_assoc]
    exact whole

private theorem readsStatement_function {token : Token} {parameters : List Name} {body : Block}
    (word : token.Plain .fnWord) (inside : ReadsBlock body) :
    ReadsStatement (.function token parameters body) := by
  intro tokens spelled
  rw [statement] at spelled
  obtain ⟨copy, names, other, same, head, copied, alike, derived⟩ := derives_function word inside spelled
  refine ⟨.function copy names other, ⟨?_, fun faithful => ?_⟩, .procedure derived⟩
  · rw [statement, statement, head, copied.layout]
  · have namesAlike := alike faithful.2.1
    have bodyAlike := copied.alike faithful.2.2
    simp only [Statement.alike, Token.alike_of_spelling same, namesAlike, bodyAlike, Bool.and_self]

mutual

theorem readsExpression : (e : Expression) → e.Writable → ReadsExpression e ∧ ReadsCondition e
  | .name _, _ => ⟨readsExpression_name, readsCondition_of_reads rfl readsExpression_name⟩
  | .integer _ _, h =>
    have reads := readsExpression_integer h.1 h.2
    ⟨reads, readsCondition_of_reads rfl reads⟩
  | .boolean _ _, _ => ⟨readsExpression_boolean, readsCondition_of_reads rfl readsExpression_boolean⟩
  | .unary _ _ operand, h =>
    have reads := readsCondition_unary (readsExpression operand h).1
    ⟨reads_of_readsCondition rfl rfl reads, reads⟩
  | .binary _ _ left right, h =>
    have reads := readsCondition_binary (readsExpression left h.1).1 (readsExpression right h.2).1
    ⟨reads_of_readsCondition rfl rfl reads, reads⟩
  | .call _ callee arguments, h =>
    have reads := readsExpression_call (readsExpression callee h.1).1 (readsArguments arguments h.2)
    ⟨reads, readsCondition_of_reads rfl reads⟩
  | .function _ _ body, h =>
    have reads := readsExpression_function h.1 (readsBlock body h.2.2)
    ⟨reads, readsCondition_of_reads rfl reads⟩

theorem readsArguments : (es : List Expression) → Expression.AllWritable es → ReadsArguments es
  | [], _ => readsArguments_nil
  | e :: es, h => readsArguments_cons (readsExpression e h.1).1 (readsArguments es h.2)

theorem readsBlock : (b : Block) → b.Writable → ReadsBlock b
  | .braced _ body, h => readsBlock_braced (readsStatements body h)

theorem readsStatements : (body : List Statement) → Statement.AllWritable body → ReadsStatements body
  | [], _ => readsStatements_nil
  | s :: body, h => readsStatements_cons (readsStatement s h.1) (readsStatements body h.2)

theorem readsAlternative : (other : Option Block) → Block.OptionWritable other → ReadsAlternative other
  | none, _ => readsAlternative_none
  | some other, h => readsAlternative_some (readsBlock other h)

theorem readsStatement : (s : Statement) → s.Writable → ReadsStatement s
  | .binding _ _ value, h => readsStatement_binding h.1 (readsExpression value h.2.2).1
  | .answer _ value, h => readsStatement_answer h.1 (readsExpression value h.2).1
  | .assignment _ _ value, h => readsStatement_assignment (readsExpression value h.2).1
  | .conditional _ guard consequence other, h =>
    readsStatement_conditional (readsExpression guard h.1).2 (readsBlock consequence h.2.1)
      (readsAlternative other h.2.2)
  | .function _ _ body, h => readsStatement_function h.1 (readsBlock body h.2.2)

end

end Layout
end LittleScript

import LittleScript.Proofs.Grammar.Beginning
import LittleScript.Proofs.Grammar.Completeness.Phrase

/-!
Expressions, arguments and functions are read as the grammar derives them: for each way to derive one,
if the parts are read, the whole is read.
-/

namespace LittleScript.Grammar

open Run Rule

section
variable {layer : Layer} {tree : Expression} {held peak low high : Nat}
  {tokens front back : List Token} {token opening closing : Token}

theorem completes_name (kind : token.kind = .identifier) :
    Completes (.expression .primary (.name (Name.ofToken token)) 0) [token] 0 := by
  intro limit levels precedence s rest _ _ tokens _
  apply climbs_token tokens
  simp only [operandOn, kind, run_pure]

theorem completes_integer (kind : token.kind = .integer)
    (fits : Numeral.value token.literal.toList ≤ Numeral.largest) :
    Completes (.expression .primary (.integer token (Numeral.value token.literal.toList)) 0) [token] 0 := by
  intro limit levels precedence s rest _ _ tokens _
  apply climbs_token tokens
  have read : Numeral.read? token.literal = some (Numeral.value token.literal.toList) :=
    Numeral.read?_eq_some.2 ⟨rfl, fits⟩
  simp only [operandOn, kind, Rule.integer, read, run_pure]

theorem completes_boolean (value : Bool) (kind : token.kind = if value then .trueWord else .falseWord) :
    Completes (.expression .primary (.boolean token value) 0) [token] 0 := by
  intro limit levels precedence s rest _ _ tokens _
  apply climbs_token tokens
  cases value with
  | true => simp only [operandOn, kind, if_true, run_pure]
  | false => simp only [operandOn, kind, Bool.false_eq_true, if_false, run_pure]

theorem completes_group (opens : opening.kind = .leftParen)
    (inside : Completes (.whole tree) tokens peak) (closes : closing.kind = .rightParen) :
    Completes (.expression .primary tree 0) (opening :: (tokens ++ [closing])) peak := by
  intro limit levels precedence s rest _ _ all base
  rw [List.cons_append, List.append_assoc] at all
  apply climbs_operandOn all
  simp only [operandOn, opens]
  have reads := inside limit levels s _ (unlinked_of_kind closes rfl) (State.ahead_of_tokens all) base
  apply reads.andThen
  intro t _ left
  apply Reads.expected left closes
  exact .done (State.ahead_advance left)

theorem completes_literal {parameters : List Name} {body : Block}
    (function : Completes (.function token parameters body) tokens peak) :
    Completes (.expression .primary (.function token parameters body) 0) tokens peak := by
  obtain ⟨others, rfl, word, reads⟩ := function
  intro limit levels precedence s rest _ _ all base
  apply climbs_operandOn all
  simp only [operandOn, word]
  apply (reads limit levels s rest trivial (State.ahead_of_tokens all) base).andThen
  intro t _ left
  exact .done left

/-- Between the parentheses of a call or of a parameter list. -/
private theorem reads_listed {α : Type} {rule : Inner → Rule α} {values : List α}
    (none : values = [] → tokens = [] ∧ peak = 0)
    (begins : values ≠ [] → tokens ≠ [] ∧ headKind tokens ≠ .rightParen)
    (more : values ≠ [] → ReadsAhead (fun inner => moreItems (rule inner) []) (tokens ++ [closing]) peak
      values fun _ => True)
    (closes : closing.kind = .rightParen) :
    ReadsAhead (fun inner => listed (rule inner)) (tokens ++ [closing]) peak values fun _ => True := by
  intro limit levels s rest _ ahead base
  rw [List.append_assoc] at ahead
  apply Reads.step (run_peek s) (.refl s)
  rw [State.peek_kind, ahead]
  by_cases empty : values = []
  · obtain ⟨rfl, rfl⟩ := none empty
    subst empty
    rw [List.nil_append, List.singleton_append, headKind_cons, if_pos closes]
    apply Reads.step (run_advance s) s.quiet_advance
    exact .done (State.ahead_advance ahead)
  · rw [headKind_append (begins empty).1, if_neg (begins empty).2]
    exact more empty limit levels s rest trivial (by rw [ahead, List.append_assoc]) base

theorem completes_call {callee : Expression} {arguments : List Expression}
    (opens : opening.kind = .leftParen) (left : Completes (.expression .call callee held) front low)
    (begins : arguments ≠ [] → back ≠ [] ∧ headKind back ≠ .rightParen)
    (right : Completes (.arguments arguments) back high) (closes : closing.kind = .rightParen) :
    Completes (.expression .call (.call opening callee arguments) (held + 1))
      (front ++ opening :: (back ++ [closing])) (max low (held + 1 + high)) := by
  intro limit levels precedence s rest read _ all base
  have first := left limit levels precedence s (opening :: (back ++ [closing]) ++ rest) read
    (linkAbove?_call _) (by rw [all, List.append_assoc]) base
  have above : linkAbove? precedence opening.kind = some .call := by
    rw [linkAbove?_eq_some, ofKind?_call]
    exact ⟨opens, Layer.lt_call read⟩
  apply first.link above base
  · intro free t ahead base
    have listed : ReadsAhead (fun inner => listed (nextExpression inner)) (back ++ [closing]) high
        arguments fun _ => True := by
      apply reads_listed _ begins _ closes
      · intro empty
        simpa only [Completes, if_pos empty] using right
      · intro proper
        have right := right
        simp only [Completes, if_neg proper] at right
        exact right closing [] closes
    apply Reads.step (run_advance t) t.quiet_advance
    apply Reads.step (run_current _) (.refl _)
    have behind := listed limit free t.advance rest trivial (State.ahead_advance ahead) base
    apply behind.andThen
    intro u _ left
    rw [State.current_advance, State.peek_of_ahead ahead]
    exact .done left

/-- An expression of the layer that belongs to a strength, up to where no link follows. -/
private theorem reads_expression (precedence : Precedence)
    (h : Completes (.expression precedence.layer tree held) tokens peak) {limit levels : Nat} {s : State}
    {rest : List Token} (ends : linkAbove? precedence (headKind rest) = none)
    (weak : precedence.rank ≤ precedence.layer.strength.rank) (all : s.tokens = tokens ++ rest)
    (base : s.depth + levels = limit) :
    Reads limit levels (expression limit levels precedence) s (peak + 1) tree (· = rest) := by
  have climbs : ∀ levels t, t.tokens = s.tokens → t.depth + levels = limit →
      Climbs limit levels precedence t peak tree held rest := by
    intro levels t same base
    exact h limit levels precedence t rest (Nat.le_refl _) (linkAbove?_mono weak ends) (same.trans all) base
  exact Climbs.expression climbs ends base

theorem completes_unary {operator : UnaryOperator} {operand : Expression}
    (kind : token.kind = operator.kind) (right : Completes (.expression .unary operand held) tokens peak) :
    Completes (.expression .unary (.unary token operator operand) 0) (token :: tokens) (peak + 1) := by
  intro limit levels precedence s rest _ ends all base
  rw [List.cons_append] at all
  apply climbs_operandOn all
  have own : operandOn (within limit levels) token = Rule.unary (within limit levels) token operator := by
    cases operator <;> simp only [operandOn, kind, UnaryOperator.kind]
  rw [own]
  apply Reads.step (run_advance s) s.quiet_advance
  have inside := reads_expression .unary right (s := s.advance) ends (by decide)
    (State.ahead_of_tokens all) base
  apply inside.andThen
  intro t _ left
  exact .done left

theorem completes_binary {operator : BinaryOperator} {left right : Expression} {held' : Nat}
    (kind : token.kind = operator.kind) (own : operator ∈ layer.operators)
    (first : Completes (.expression layer left held) front low)
    (second : Completes (.expression layer.higher right held') back high) :
    Completes (.expression layer (.binary token operator left right) (held + 1))
      (front ++ token :: back) (max low (held + 1 + (high + 1))) := by
  intro limit levels precedence s rest read ends all base
  have strength := Layer.strength_of_mem own
  have link : Link.ofKind? token.kind = some (.binary operator) := ofKind?_binary.2 kind
  have unlinked : linkAbove? layer.strength token.kind = none := by
    rw [linkAbove?, link, Option.filter_some, if_neg]
    rw [strength, decide_eq_true_iff]
    exact Nat.lt_irrefl _
  have before := first limit levels precedence s (token :: back ++ rest) read unlinked
    (by rw [all, List.append_assoc]) base
  have above : linkAbove? precedence token.kind = some (.binary operator) := by
    rw [linkAbove?_eq_some, strength]
    exact ⟨link, Layer.lt_strength own read⟩
  apply before.link above base
  · intro free t ahead base
    apply Reads.step (run_advance t) t.quiet_advance
    apply Reads.step (run_current _) (.refl _)
    apply Reads.step (run_advance _) (State.quiet_advance _)
    rw [State.current_advance, State.peek_of_ahead ahead, strength]
    rw [← Layer.layer_strength own] at second
    have behind := reads_expression _ second (s := t.advance.advance) ends
      (by rw [Layer.layer_strength own]; exact Layer.strength_le_higher layer)
      (State.ahead_advance ahead) base
    apply behind.andThen
    intro u _ left
    exact .done left

theorem completes_lift (above : Completes (.expression layer.higher tree held) tokens peak) :
    Completes (.expression layer tree held) tokens peak := by
  intro limit levels precedence s rest read ends all base
  apply above limit levels precedence s rest _ _ all base
  · exact Nat.le_trans read (Layer.rank_le_higher layer)
  · exact linkAbove?_mono (Layer.strength_le_higher layer) ends

theorem completes_whole (chain : Completes (.expression .equality tree held) tokens peak) :
    Completes (.whole tree) tokens (peak + 1) := by
  intro limit levels s rest ends ahead base
  apply Reads.step (run_advance s) s.quiet_advance
  exact reads_expression .lowest chain ends (by decide) ahead base

/-- The last item of a list, with the closing parenthesis behind it. -/
private theorem reads_lastItem {α : Type} {rule : Inner → Rule α} {value : α}
    (item : ReadsAhead rule tokens peak value Unlinked) (closes : closing.kind = .rightParen)
    (found : List α) :
    ReadsAhead (fun inner => moreItems (rule inner) found) (tokens ++ [closing]) peak
      (found.reverse ++ [value]) fun _ => True := by
  intro limit levels s rest _ ahead base
  rw [List.append_assoc] at ahead
  have reads := item limit levels s _ (unlinked_of_kind closes rfl) ahead base
  apply reads.andThen
  intro t _ left
  have other : t.peek.kind ≠ .comma := by
    rw [State.peek_of_ahead left, closes]
    decide
  apply Reads.step (run_items_done other) (.refl t)
  apply Reads.expected left closes
  rw [List.reverse_cons]
  exact .done (State.ahead_advance left)

/-- An item with a comma behind it, and the items that follow. -/
private theorem reads_moreItems {α : Type} {rule : Inner → Rule α} {value : α} {values found : List α}
    {comma : Token} (item : ReadsAhead rule front low value Unlinked) (commas : comma.kind = .comma)
    (more : ReadsAhead (fun inner => moreItems (rule inner) (value :: found)) back high
      ((value :: found).reverse ++ values) fun _ => True) :
    ReadsAhead (fun inner => moreItems (rule inner) found) (front ++ comma :: back) (max low high)
      (found.reverse ++ value :: values) fun _ => True := by
  intro limit levels s rest _ ahead base
  rw [List.append_assoc] at ahead
  have reads := item limit levels s _ (unlinked_of_kind commas rfl) ahead base
  apply reads.bind
  intro t quiet left
  have behind := more limit levels t.advance rest trivial (State.ahead_advance left)
    (by rw [State.depth_advance, quiet.depth, base])
  have seen : t.peek.kind = .comma := by rw [State.peek_of_ahead left, commas]
  rw [List.reverse_cons, List.append_assoc, List.singleton_append] at behind
  have steps : Reads limit levels
      (advance >>= fun _ => moreItems (rule (within limit levels)) (value :: found)) t high
      (found.reverse ++ value :: values) (· = rest) := .step (run_advance t) t.quiet_advance behind
  apply steps.of_run_eq
  rw [run_bind, run_items_comma seen, ← run_bind, moreItems]
  simp only [Rule.bind_assoc]

theorem completes_lastArgument (argument : Completes (.whole tree) tokens peak) :
    Completes (.arguments [tree]) tokens peak := by
  rw [Completes, if_neg (List.cons_ne_nil _ _)]
  intro closing found closes
  exact reads_lastItem argument closes found

theorem completes_moreArguments {comma : Token} {trees : List Expression}
    (first : Completes (.whole tree) front low) (commas : comma.kind = .comma)
    (rest : Completes (.arguments trees) back high) (proper : trees ≠ []) :
    Completes (.arguments (tree :: trees)) (front ++ comma :: back) (max low high) := by
  rw [Completes, if_neg proper] at rest
  rw [Completes, if_neg (List.cons_ne_nil _ _)]
  intro closing found closes
  rw [List.append_assoc]
  exact reads_moreItems first commas (rest closing (tree :: found) closes)

/-- A parameter takes no level and may be followed by anything. -/
private theorem reads_parameter (named : token.kind = .identifier) :
    ReadsAhead (fun _ => parameter) [token] 0 (Name.ofToken token) Unlinked := by
  intro limit levels s rest _ ahead _
  apply Reads.expected ahead named
  exact .done (State.ahead_advance ahead)

private theorem reads_parameters {names : List Name} (h : Parameters names tokens) (proper : names ≠ [])
    (closes : closing.kind = .rightParen) (found : List Name) :
    ReadsAhead (fun _ => moreItems parameter found) (tokens ++ [closing]) 0 (found.reverse ++ names)
      fun _ => True := by
  induction h generalizing found with
  | none => exact absurd rfl proper
  | last named => exact reads_lastItem (reads_parameter named) closes found
  | @more token comma names tokens named commas rest others ih =>
    have first := reads_parameter named
    exact reads_moreItems first commas (ih others (Name.ofToken token :: found))

private theorem reads_parameterList {names : List Name} (h : Parameters names tokens)
    (closes : closing.kind = .rightParen) :
    ReadsAhead (fun _ => listed parameter) (tokens ++ [closing]) 0 names fun _ => True := by
  apply reads_listed _ _ _ closes
  · rintro rfl
    cases h
    exact ⟨rfl, rfl⟩
  · intro proper
    cases h with
    | none => exact absurd rfl proper
    | last named => exact begins_of_kind named (by decide)
    | more named => exact begins_of_kind named (by decide)
  · intro proper
    exact reads_parameters h proper closes []

theorem completes_function {parameters : List Name} {body : Block} {names : List Token}
    (word : token.kind = .fnWord) (opens : opening.kind = .leftParen)
    (named : Parameters parameters names) (closes : closing.kind = .rightParen)
    (block : Completes (.block body) tokens peak) :
    Completes (.function token parameters body) (token :: opening :: (names ++ closing :: tokens)) peak := by
  refine ⟨_, rfl, word, ?_⟩
  intro limit levels s rest _ ahead base
  rw [List.cons_append, List.append_assoc] at ahead
  apply Reads.expected ahead opens
  have first := reads_parameterList named closes limit levels s.advance (tokens ++ rest) trivial
    (by rw [State.ahead_advance ahead, List.append_assoc]; rfl) base
  rw [← Nat.zero_max peak]
  apply first.bind
  intro t quiet left
  have second := block limit levels t rest trivial left (by rw [quiet.depth, State.depth_advance, base])
  apply second.andThen
  intro u _ left
  exact .done left

end

end LittleScript.Grammar

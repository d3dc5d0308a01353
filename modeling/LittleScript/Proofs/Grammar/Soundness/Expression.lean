import LittleScript.Proofs.Grammar.Basic
import LittleScript.Proofs.Rule.Climbing
import LittleScript.Proofs.Rule.Silence

/-!
What the rules for expressions ensure when they report nothing. The rules are followed level by level:
those with some levels to open read phrases whose derivations have no more levels than that.
-/

namespace LittleScript.Grammar

open Run Rule

/-- The tokens between `left` and the state derive the phrase, within the levels. -/
def Derived (phrase : Phrase) (levels : Nat) (left : List Token) (depth : Nat) (t : State) : Prop :=
  ∃ tokens peak, Derives phrase tokens peak ∧ peak ≤ levels ∧ left = tokens ++ t.ahead ∧
    t.depth = depth

structure Sound (limit levels : Nat) : Prop where
  expression : ∀ precedence s, precedence ≠ .call → s.depth + levels = limit →
    Ensures (expression limit levels precedence) s fun tree t =>
      linkAbove? precedence t.peek.kind = none ∧ ∃ held tokens peak,
        Derives (.expression precedence.layer tree held) tokens peak ∧ peak + 1 ≤ levels ∧
          s.tokens = tokens ++ t.ahead ∧ t.depth = s.depth
  block : ∀ s, s.current.kind = .leftBrace → s.depth + levels = limit →
    Ensures (block limit levels) s fun tree t => Derived (.block tree) levels s.tokens s.depth t

section
variable {limit levels : Nat} {s : State}

theorem ensures_nextExpression (h : Sound limit levels) (base : s.depth + levels = limit) :
    Ensures (nextExpression (within limit levels)) s fun tree t =>
      Derived (.whole tree) levels s.ahead s.depth t := by
  apply Ensures.step (run_advance s)
  apply (h.expression .lowest s.advance (by decide) base).weaken
  rintro tree t ⟨-, held, tokens, peak, derives, le, used, depth⟩
  exact ⟨tokens, peak + 1, .whole derives, le, used, depth⟩

theorem ensures_nextBlock (h : Sound limit levels) (base : s.depth + levels = limit) :
    Ensures (nextBlock (within limit levels)) s fun tree t =>
      Derived (.block tree) levels s.ahead s.depth t := by
  apply Ensures.expected (by decide)
  intro opens ahead
  exact h.block s.advance opens base

end

structure Lists {α : Type} (Item : α → List Token → Nat → Prop)
    (Items : List α → List Token → Nat → Prop) : Prop where
  none : Items [] [] 0
  last : ∀ {a tokens peak}, Item a tokens peak → Items [a] tokens peak
  more : ∀ {a as comma front back low high}, Item a front low → comma.kind = .comma →
    Items as back high → as ≠ [] → Items (a :: as) (front ++ comma :: back) (max low high)

section
variable {α : Type} {Item : α → List Token → Nat → Prop} {Items : List α → List Token → Nat → Prop}
  {item : Rule α} {levels : Nat} {s : State}

private def EnsuresItem (Item : α → List Token → Nat → Prop) (levels depth : Nat) (item : Rule α) : Prop :=
  ∀ s, s.depth = depth → Ensures item s fun a t => ∃ tokens peak, Item a tokens peak ∧ peak ≤ levels ∧
    s.ahead = tokens ++ t.ahead ∧ t.depth = depth

/-- Further items make a list together with any item in front of them. -/
private theorem ensures_items {depth : Nat} (lists : Lists Item Items) (h : EnsuresItem Item levels depth item)
    (found : List α) (base : s.depth = depth) :
    Ensures (items item found) s fun all t => ∃ more tokens peak, all = found.reverse ++ more ∧
      peak ≤ levels ∧ s.ahead = tokens ++ t.ahead ∧ t.depth = depth ∧
      ∀ a front low, Item a front low → Items (a :: more) (front ++ tokens) (max low peak) := by
  change s.Silent (itemsFrom item found s).2 → ∃ a t, itemsFrom item found s = (some a, t) ∧ _
  intro silent
  fun_induction itemsFrom item found s with
  | case1 found s comma t failed =>
    have led := leads_of_run failed
    have inside := (State.Silent.split (.advance s) led silent).2
    obtain ⟨a, u, run, -⟩ := h s.advance base (by rw [failed]; exact inside)
    rw [failed] at run
    cases run
  | case2 found s comma a t built ih =>
    have led := leads_of_run built
    have rest := leads_itemsFrom item (a :: found) t
    have behind := (State.Silent.split (.advance s) (led.trans rest) silent).2
    obtain ⟨inside, behind⟩ := State.Silent.split led rest behind
    obtain ⟨b, u, run, front, low, one, le, ahead, depth'⟩ := h s.advance base (by rw [built]; exact inside)
    obtain ⟨⟨⟩, rfl⟩ := Prod.mk.inj (built.symm.trans run)
    obtain ⟨all, u, run, more, tokens, peak, rfl, le', ahead', depth'', makes⟩ := ih depth' behind
    refine ⟨_, u, run, a :: more, s.peek :: (front ++ tokens), max low peak, ?_, ?_, ?_, depth'', ?_⟩
    · rw [List.reverse_cons, List.append_assoc, List.singleton_append]
    · exact Nat.max_le.2 ⟨le, le'⟩
    · rw [State.ahead_of_peek (by rw [comma]; decide), ahead, ahead', List.cons_append, List.append_assoc]
    · intro b other low' first
      exact lists.more first comma (makes a front low one) (List.cons_ne_nil _ _)
  | case3 found s other =>
    refine ⟨_, s, rfl, [], [], 0, ?_, Nat.zero_le _, rfl, base, ?_⟩
    · rw [List.append_nil]
    · intro a front low first
      rw [List.append_nil, Nat.max_zero]
      exact lists.last first

/-- A list up to its closing parenthesis. -/
private theorem ensures_listed (lists : Lists Item Items) (h : EnsuresItem Item levels s.depth item) :
    Ensures (listed item) s fun all t => ∃ tokens peak closing, Items all tokens peak ∧ peak ≤ levels ∧
      closing.kind = .rightParen ∧ s.ahead = tokens ++ closing :: t.ahead ∧ t.depth = s.depth := by
  apply Ensures.step (run_peek s)
  by_cases empty : s.peek.kind = .rightParen
  · rw [if_pos empty]
    apply Ensures.step (run_advance s)
    have ahead := State.ahead_of_peek (s := s) (by rw [empty]; decide)
    exact .done ⟨[], 0, s.peek, lists.none, Nat.zero_le _, empty, ahead, rfl⟩
  · rw [if_neg empty]
    apply (h s rfl).bind
    rintro first t ⟨front, low, one, le, ahead, depth⟩
    apply (ensures_items lists h [first] depth).bind
    rintro all u ⟨more, tokens, peak, rfl, le', ahead', depth', makes⟩
    apply Ensures.expected (by decide)
    intro closes closing
    refine .done ⟨front ++ tokens, max low peak, u.peek, makes first front low one,
      Nat.max_le.2 ⟨le, le'⟩, closes, ?_, depth'⟩
    rw [ahead, ahead', closing, List.append_assoc]

end

private theorem lists_arguments :
    Lists (fun tree tokens peak => Derives (.whole tree) tokens peak)
      fun trees tokens peak => Derives (.arguments trees) tokens peak where
  none := .noArguments
  last := .lastArgument
  more := .moreArguments

private def IsName (name : Name) (tokens : List Token) (peak : Nat) : Prop :=
  peak = 0 ∧ ∃ token, token.kind = .identifier ∧ name = Name.ofToken token ∧ tokens = [token]

private theorem lists_parameters :
    Lists IsName fun names tokens peak => peak = 0 ∧ Parameters names tokens where
  none := ⟨rfl, .none⟩
  last := by
    rintro name tokens peak ⟨rfl, token, named, rfl, rfl⟩
    exact ⟨rfl, .last named⟩
  more := by
    rintro name names comma front back low high ⟨rfl, token, named, rfl, rfl⟩ commas ⟨rfl, rest⟩ proper
    exact ⟨rfl, .more named commas rest proper⟩

section
variable {limit levels : Nat} {s : State}

private theorem ensures_arguments (h : Sound limit levels) (base : s.depth + levels = limit) :
    Ensures (listed (nextExpression (within limit levels))) s fun trees t =>
      ∃ tokens peak closing, Derives (.arguments trees) tokens peak ∧ peak ≤ levels ∧
        closing.kind = .rightParen ∧ s.ahead = tokens ++ closing :: t.ahead ∧ t.depth = s.depth := by
  apply ensures_listed lists_arguments
  intro t depth
  rw [← depth]
  exact ensures_nextExpression h (by rw [depth, base])

private theorem ensures_parameters :
    Ensures (listed parameter) s fun names t => ∃ tokens closing, Parameters names tokens ∧
      closing.kind = .rightParen ∧ s.ahead = tokens ++ closing :: t.ahead ∧ t.depth = s.depth := by
  have item : EnsuresItem IsName 0 s.depth parameter := by
    intro t depth
    apply Ensures.expected (by decide)
    intro named ahead
    exact .done ⟨[t.peek], 0, ⟨rfl, t.peek, named, rfl, rfl⟩, Nat.le_refl _, ahead, depth⟩
  apply (ensures_listed lists_parameters item).weaken
  rintro names t ⟨tokens, _, closing, ⟨rfl, parameters⟩, -, closes, ahead, depth⟩
  exact ⟨tokens, closing, parameters, closes, ahead, depth⟩

/-- A function from its keyword on, on which the run stands. -/
theorem ensures_signature (h : Sound limit levels) (word : s.current.kind = .fnWord)
    (base : s.depth + levels = limit) :
    Ensures (signature (within limit levels)) s fun (parameters, body) t =>
      Derived (.function s.current parameters body) levels s.tokens s.depth t := by
  have start := State.tokens_of_current (s := s) (by rw [word]; decide)
  apply Ensures.expected (by decide)
  intro opens ahead
  apply ensures_parameters.bind
  rintro parameters t ⟨names, closing, named, closes, ahead', depth⟩
  apply (ensures_nextBlock h (by rw [depth, State.depth_advance, base])).bind
  rintro body u ⟨tokens, peak, block, le, ahead'', depth'⟩
  refine .done ⟨_, peak, .function word opens named closes block, le, ?_, ?_⟩
  · rw [start, ahead, ahead', ahead'']
    simp only [List.cons_append, List.append_assoc]
  · rw [depth', depth, State.depth_advance]

def Closed (layer : Layer) (t : State) : Prop := linkAbove? layer.strength t.peek.kind = none

private theorem ensures_grouped (h : Sound limit levels) (opens : s.current.kind = .leftParen)
    (base : s.depth + levels = limit) :
    Ensures (grouped (within limit levels)) s fun tree t =>
      Derived (.expression .primary tree 0) levels s.tokens s.depth t := by
  have start := State.tokens_of_current (s := s) (by rw [opens]; decide)
  apply (ensures_nextExpression h base).bind
  rintro tree t ⟨tokens, peak, inside, le, ahead, depth⟩
  apply Ensures.expected (by decide)
  intro closes closing
  refine .done ⟨_, peak, .group opens inside closes, le, ?_, depth⟩
  rw [start, ahead, closing]
  simp only [List.cons_append, List.append_assoc, List.nil_append]

private def DerivedOperand (tree : Expression) (levels : Nat) (left : List Token) (depth : Nat) (t : State) : Prop :=
  ∃ layer, Layer.unary.rank ≤ layer.rank ∧ Closed layer t ∧
    Derived (.expression layer tree 0) levels left depth t

/-- Every link may follow a primary. -/
private theorem Derived.operand {tree : Expression} {left : List Token} {depth : Nat} {t : State}
    (h : Derived (.expression .primary tree 0) levels left depth t) :
    DerivedOperand tree levels left depth t := ⟨.primary, by decide, linkAbove?_call _, h⟩

/-- A single token that is read by looking at it. -/
private theorem derivedOperand_current {tree : Expression} (proper : s.current.kind ≠ .endOfInput)
    (derives : Derives (.expression .primary tree 0) [s.current] 0) :
    DerivedOperand tree levels s.tokens s.depth s :=
  Derived.operand ⟨[s.current], 0, derives, Nat.zero_le _, State.tokens_of_current proper, rfl⟩

private theorem ensures_unary (h : Sound limit levels) {operator : UnaryOperator}
    (kind : s.current.kind = operator.kind) (base : s.depth + levels = limit) :
    Ensures (Rule.unary (within limit levels) s.current operator) s fun tree t =>
      DerivedOperand tree levels s.tokens s.depth t := by
  have start := State.tokens_of_current (s := s) (by rw [kind]; cases operator <;> decide)
  apply Ensures.step (run_advance s)
  apply (h.expression .unary s.advance (by decide) base).bind
  rintro operand t ⟨ends, held, tokens, peak, right, le, used, depth⟩
  refine .done ⟨.unary, Nat.le_refl _, ends, _, peak + 1, .unary kind right, le, ?_, depth⟩
  rw [start, ← State.ahead_advance_tokens, used, List.cons_append]

private theorem ensures_operand (h : Sound limit levels) (base : s.depth + levels = limit) :
    Ensures (operand (within limit levels)) s fun tree t =>
      DerivedOperand tree levels s.tokens s.depth t := by
  apply Ensures.step (run_current s)
  unfold operandOn
  split
  · rename_i kind
    exact .done (derivedOperand_current (by rw [kind]; decide) (.name kind))
  · rename_i kind
    unfold Rule.integer
    split
    · rename_i value read
      obtain ⟨rfl, fits⟩ := Numeral.read?_eq_some.1 read
      exact .done (derivedOperand_current (by rw [kind]; decide) (.integer kind fits))
    · exact .refuse _ _
  · rename_i kind
    exact ensures_unary h kind base
  · rename_i kind
    exact ensures_unary h kind base
  · rename_i kind
    exact .done (derivedOperand_current (by rw [kind]; decide) (.boolean true kind))
  · rename_i kind
    exact .done (derivedOperand_current (by rw [kind]; decide) (.boolean false kind))
  · rename_i kind
    apply (ensures_grouped h kind base).weaken
    exact fun _ _ derived => derived.operand
  · rename_i kind
    apply (ensures_signature h kind base).bind
    rintro ⟨parameters, body⟩ t ⟨tokens, peak, function, le, used, depth⟩
    exact .done (Derived.operand ⟨tokens, peak, .literal function, le, used, depth⟩)
  · exact .refuse _ _
  · exact .refuse _ _

/-- The link that follows, although the chain so far is closed, binds no tighter than its layer. -/
private theorem not_lt_of_closed {layer : Layer} {link : Link} (closed : Closed layer s)
    (made : Link.ofKind? s.peek.kind = some link) : ¬ layer.strength < link.precedence := by
  intro tighter
  rw [Closed, linkAbove?_eq_some.2 ⟨made, tighter⟩] at closed
  cases closed

/-- A link makes a chain with one link more, in its own layer. -/
private theorem ensures_linked (h : Sound limit levels) {precedence : Precedence} {layer : Layer} {link : Link}
    {left : Expression} {held low : Nat} {front : List Token} (used : precedence ≠ .call)
    (above : linkAbove? precedence s.peek.kind = some link) (closed : Closed layer s)
    (first : Derives (.expression layer left held) front low) (base : s.depth + levels = limit) :
    Ensures (linked (within limit levels) link left) s fun tree t => ∃ layer,
      precedence.layer.rank ≤ layer.rank ∧ Closed layer t ∧ ∃ back high,
        Derives (.expression layer tree (held + 1)) (front ++ back) (max low (held + 1 + high)) ∧
          high ≤ levels ∧ s.ahead = back ++ t.ahead ∧ t.depth = s.depth := by
  obtain ⟨made, tighter⟩ := linkAbove?_eq_some.1 above
  have loose := not_lt_of_closed closed made
  apply Ensures.step (run_advance s)
  apply Ensures.step (run_current _)
  cases link with
  | call =>
    have opens : s.peek.kind = .leftParen := ofKind?_call.1 made
    have ahead := State.ahead_of_peek (s := s) (by rw [opens]; decide)
    have callee := first.lower (Layer.call_rank_le loose)
    apply (ensures_arguments h (s := s.advance) base).bind
    rintro arguments t ⟨tokens, high, closing, right, le, closes, ahead', depth⟩
    refine .done ⟨.call, ?_, linkAbove?_call _, _, high, .call opens callee right closes, le, ?_, depth⟩
    · exact Nat.le_trans (Layer.layer_rank_le_unary used) (by decide)
    · rw [ahead, ahead', State.current_advance]
      simp only [List.cons_append, List.append_assoc, List.nil_append]
  | binary operator =>
    have kind : s.peek.kind = operator.kind := ofKind?_binary.1 made
    have ahead := State.ahead_of_peek (s := s) (by rw [kind]; cases operator <;> decide)
    obtain ⟨layer', own⟩ := Layer.exists_mem_operators operator
    have strength := Layer.strength_of_mem own
    have left := first.lower (Layer.rank_le_of_not_lt own (strength ▸ loose))
    have proper : (Link.binary operator).precedence ≠ .call := by cases operator <;> decide
    apply Ensures.step (run_advance _)
    apply (h.expression _ s.advance.advance proper base).bind
    rintro right t ⟨ends, held', tokens, peak, second, le, used, depth⟩
    rw [strength] at ends second
    rw [Layer.layer_strength own] at second
    refine .done ⟨layer', Layer.layer_rank_le own (strength ▸ tighter), ends, _, peak + 1,
      .binary kind own left second, le, ?_, depth⟩
    rw [ahead, ← State.ahead_advance_tokens s.advance, used, State.current_advance, List.cons_append]

end

/-- From `s`, the links behind `left` make it a chain of the layer that the threshold belongs to. -/
def ExtendsChain (limit levels : Nat) (precedence : Precedence) (left : Expression) (held : Nat)
    (front : List Token) (s : State) : Prop :=
  ∃ tree held' t back peak,
    (links limit levels precedence left (held + 1)).run s = (some tree, held' + 1, t) ∧
      linkAbove? precedence t.peek.kind = none ∧
      Derives (.expression precedence.layer tree held') (front ++ back) peak ∧ peak ≤ levels + held ∧
      s.ahead = back ++ t.ahead ∧ t.depth + held = s.depth + held'

def SoundLinks (limit levels : Nat) : Prop :=
  ∀ precedence layer left held front peak s, precedence ≠ .call → precedence.layer.rank ≤ layer.rank →
    Closed layer s → Derives (.expression layer left held) front peak → peak ≤ levels + held →
    s.depth + levels = limit → s.Silent ((links limit levels precedence left (held + 1)).run s).2.2 →
    ExtendsChain limit levels precedence left held front s

section
variable {limit levels : Nat}

private theorem soundLinks_unlinked {precedence : Precedence} {layer : Layer} {left : Expression}
    {held peak : Nat} {front : List Token} {s : State} (read : precedence.layer.rank ≤ layer.rank)
    (first : Derives (.expression layer left held) front peak) (fits : peak ≤ levels + held)
    (unlinked : linkAbove? precedence s.peek.kind = none) :
    ExtendsChain limit levels precedence left held front s := by
  refine ⟨left, held, s, [], peak, run_links_unlinked unlinked, unlinked, ?_, fits, rfl, rfl⟩
  rw [List.append_nil]
  exact first.lower read

theorem soundLinks_zero : SoundLinks limit 0 := by
  intro precedence layer left held front peak s used read closed first fits base silent
  cases above : linkAbove? precedence s.peek.kind with
  | none => exact soundLinks_unlinked read first fits above
  | some link =>
    rw [run_links_zero above] at silent
    exact absurd silent (s.not_silent_diagnosed _)

theorem soundLinks_succ (h : Sound limit levels) (more : SoundLinks limit levels) :
    SoundLinks limit (levels + 1) := by
  intro precedence layer left held front low s used read closed first fits base silent
  cases above : linkAbove? precedence s.peek.kind with
  | none => exact soundLinks_unlinked read first fits above
  | some link =>
    have room : s.depth < limit := by omega
    have base' : s.takeLevel.depth + levels = limit := by
      rw [State.depth_takeLevel]
      omega
    rw [run_links_succ above, if_pos room] at silent
    have inside := Eq.trans silent (Eq.symm (State.diagnostics_takeLevel s))
    have linked := ensures_linked h (s := s.takeLevel) used above closed first base'
    obtain ⟨tree, t, good, same, silent'⟩ := silent_chain linked inside
    obtain ⟨layer', read', closed', back, high, chain, le, ahead, depth⟩ := good
    have room' : max low (held + 1 + high) ≤ levels + (held + 1) := by omega
    obtain ⟨tree', held', u, back', peak, run, ends, whole, le', ahead', depth'⟩ :=
      more precedence layer' tree (held + 1) (front ++ back) _ t used read' closed' chain room'
        (by rw [depth, base']) silent'
    refine ⟨tree', held', u, back ++ back', peak, ?_, ends, ?_, ?_, ?_, ?_⟩
    · rw [run_links_succ above, if_pos room]
      exact same.trans run
    · rw [← List.append_assoc]
      exact whole
    · omega
    · rw [List.append_assoc, ← ahead']
      exact ahead
    · rw [depth, State.depth_takeLevel] at depth'
      omega

theorem sound_expression (h : Sound limit levels) (more : SoundLinks limit levels)
    {precedence : Precedence} {s : State} (used : precedence ≠ .call)
    (base : s.depth + (levels + 1) = limit) :
    Ensures (expression limit (levels + 1) precedence) s fun tree t =>
      linkAbove? precedence t.peek.kind = none ∧ ∃ held tokens peak,
        Derives (.expression precedence.layer tree held) tokens peak ∧ peak + 1 ≤ levels + 1 ∧
          s.tokens = tokens ++ t.ahead ∧ t.depth = s.depth := by
  intro silent
  have room : s.depth < limit := by omega
  let start := (entered precedence s).takeLevel
  have base' : start.depth + levels = limit := by
    rw [State.depth_takeLevel, State.depth_record]
    omega
  rw [run_expression_succ, if_pos room] at silent ⊢
  rw [Chain.run_close] at silent ⊢
  have heard : start.journal.diagnostics = s.journal.diagnostics :=
    (State.diagnostics_takeLevel _).trans (s.quiet_record _ rfl).silent
  have inside : start.Silent ((climb limit levels precedence).run start).2.2 :=
    Eq.trans (Eq.symm (State.diagnostics_returnLevels _ _)) (Eq.trans silent (Eq.symm heard))
  obtain ⟨left, t, good, same, silent'⟩ := silent_chain (ensures_operand h base') inside
  obtain ⟨layer, high, closed, front, low, first, le, used', depth⟩ := good
  have read : precedence.layer.rank ≤ layer.rank := Nat.le_trans (Layer.layer_rank_le_unary used) high
  obtain ⟨tree, held, u, back, peak, run, ends, whole, le', ahead, depth'⟩ :=
    more precedence layer left 0 front low t used read closed first le (by rw [depth, base']) silent'
  refine ⟨tree, u.returnLevels (held + 1), ?_, ends, held, front ++ back, peak, whole, ?_, ?_, ?_⟩
  · rw [same, run]
  · exact Nat.succ_le_succ le'
  · rw [List.append_assoc]
    exact used'.trans (congrArg (front ++ ·) ahead)
  · rw [State.depth_returnLevels]
    rw [depth, State.depth_takeLevel, State.depth_record] at depth'
    omega

end

end LittleScript.Grammar

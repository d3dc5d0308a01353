import LittleScript.Proofs.Layered.Basic

/-!
The descent needs no bound. Its rules read what stands inside by themselves, and reading an operand
leaves no operator that binds tighter.
-/

namespace LittleScript

open Run

namespace Rule

namespace Agree
variable {c : Comparison} {size : Nat} {i j : Inner}

private theorem extendFrom {α β : Type} {link? : Kind → Option β} {a b : β → α → Rule α}
    (h : ∀ link value, Agree c size (a link value) (b link value)) (value : α) :
    ∀ s s', c.Same s s' → s.tokens.length ≤ size + 1 →
      c.Lost s (Rule.extendFrom link? a value s).2 ∨
        SameOutcome c (Rule.extendFrom link? a value s) (Rule.extendFrom link? b value s') := by
  intro s s' same bound
  fun_induction Rule.extendFrom link? a value s generalizing s' with
  | case1 value s ended =>
    rw [Rule.extendFrom, dif_pos (by rw [c.tokens same, ended])]
    exact .inr ⟨rfl, same⟩
  | case2 value s proper unlinked =>
    rw [Rule.extendFrom, dif_neg (by rw [c.tokens same]; exact proper), Comparison.peek same]
    simp only [unlinked]
    exact .inr ⟨rfl, same⟩
  | case3 value s proper link linked t failed =>
    have shorter := State.length_advance_lt (.refl s) proper
    have outcome := h link value _ _ (c.advance same) (by omega)
    rw [failed] at outcome
    obtain lost | ⟨absent, same'⟩ := outcome
    · exact .inl (c.lost (.advance s) lost (.refl t))
    · rw [Rule.extendFrom, dif_neg (by rw [c.tokens same]; exact proper), Comparison.peek same]
      simp only [linked]
      split
      · rename_i hb
        rw [hb] at same'
        exact .inr ⟨rfl, same'⟩
      · rename_i hb
        simp [hb] at absent
  | case4 value s proper link linked w t built ih =>
    have shorter := State.length_advance_lt (.refl s) proper
    have led : s.Leads t := (State.Leads.advance s).trans (leads_of_run built)
    have outcome := h link value _ _ (c.advance same) (by omega)
    rw [built] at outcome
    obtain lost | ⟨present, same'⟩ := outcome
    · exact .inl (c.lost (.advance s) lost (leads_extendFrom link? a w t))
    · rw [Rule.extendFrom.eq_def link? b value s', dif_neg (by rw [c.tokens same]; exact proper),
        Comparison.peek same]
      simp only [linked]
      split
      · rename_i hb
        simp [hb] at present
      · rename_i y t' hb
        rw [hb] at present same'
        obtain rfl : y = w := by simpa using present
        obtain lost | outcome := ih t' same' (Nat.le_trans led.length_le bound)
        · exact .inl (c.lost led lost (.refl _))
        · exact .inr outcome

protected theorem extended {α β : Type} {link? : Kind → Option β} {a b : β → α → Rule α}
    (h : ∀ link value, Agree c size (a link value) (b link value)) (value : α) :
    Agree c (size + 1) (extended link? a value) (extended link? b value) := extendFrom h value

/-- Behind the last token nothing is extended, whatever the steps would do. -/
private theorem extended_nil {α β : Type} {link? : Kind → Option β} {a b : β → α → Rule α} (value : α) :
    Agree c 0 (extended link? a value) (extended link? b value) := by
  intro s s' same bound
  have ended := List.eq_nil_of_length_eq_zero (Nat.le_zero.1 bound)
  simp only [extended]
  rw [Rule.extendFrom.eq_def link? a, Rule.extendFrom.eq_def link? b, dif_pos ended,
    dif_pos ((c.tokens same).trans ended)]
  exact .inr ⟨rfl, same⟩

private theorem chain {layer : Layer} {a b : Rule Expression} (h : Agree c (size + 1) a b) :
    Agree c (size + 1) (Layered.chain layer a) (Layered.chain layer b) := by
  refine h.bind fun first => Agree.extended (fun operator left => ?_) first
  refine Agree.current.bind fun token => ?_
  refine Agree.advance.bind fun _ => ?_
  exact (h.mono (Nat.le_succ size)).bind fun _ => .pure _

private theorem primary (h : Inner.Agree c size i j) :
    Agree c (size + 1) (Layered.primary i) (Layered.primary j) := by
  refine Agree.current.bind fun token => ?_
  unfold Layered.primaryOn
  cases token.kind with
  | identifier => exact .pure _
  | integer => exact integer token
  | trueWord => exact .pure _
  | falseWord => exact .pure _
  | leftParen => exact grouped h
  | fnWord => exact function h token
  | _ => exact .refuse _ _

private theorem calls (h : Inner.Agree c size i j) :
    Agree c (size + 1) (Layered.calls i) (Layered.calls j) := by
  refine (primary h).bind fun callee => Agree.extended (fun _ callee => ?_) callee
  refine Agree.current.bind fun token => ?_
  exact (Agree.listed (nextExpression h)).bind (fun _ => .pure _) |>.mono (Nat.le_succ size)

private theorem unaryLayer (h : Inner.Agree c size i j) :
    Agree c (size + 1) (Layered.unary i) (Layered.unary j) := by
  refine Agree.current.bind fun token => ?_
  cases UnaryOperator.ofKind? token.kind with
  | some operator => exact unary h token operator
  | none => exact calls h

private theorem nonterminal (h : Inner.Agree c size i j) (layer : Layer) :
    Agree c (size + 1) (Layered.nonterminal i layer) (Layered.nonterminal j layer) := by
  cases layer with
  | equality => exact chain (chain (chain (chain (unaryLayer h))))
  | comparison => exact chain (chain (chain (unaryLayer h)))
  | sum => exact chain (chain (unaryLayer h))
  | product => exact chain (unaryLayer h)
  | unary => exact unaryLayer h
  | call => exact calls h
  | primary => exact primary h

private theorem rules (h : Inner.Agree c size i j) :
    Inner.Agree c (size + 1) (Layered.rules i) (Layered.rules j) where
  expression precedence _ := nonterminal h precedence.layer
  block := (openBlock h).bind fun read => closed read

end Agree
end Rule

namespace Layered

open Rule

section
variable {c : Comparison} (i j : Inner)

private theorem chain_nil {layer : Layer} {a b : Rule Expression} (h : Agree c 0 a b) :
    Agree c 0 (chain layer a) (chain layer b) := h.bind fun first => Agree.extended_nil first

private theorem primary_nil : Agree c 0 (primary i) (primary j) := by
  intro s s' same bound
  have ended := List.eq_nil_of_length_eq_zero (Nat.le_zero.1 bound)
  have mark : s.current = Token.endMark s.finish := by simp [State.current, ended]
  simp only [primary, run_bind, run_current, next_some, Comparison.current same, mark]
  exact .inr ⟨rfl, c.record _ same⟩

private theorem calls_nil : Agree c 0 (calls i) (calls j) :=
  (primary_nil i j).bind fun callee => Agree.extended_nil callee

private theorem unary_nil : Agree c 0 (unary i) (unary j) := by
  intro s s' same bound
  have ended := List.eq_nil_of_length_eq_zero (Nat.le_zero.1 bound)
  have mark : s.current = Token.endMark s.finish := by simp [State.current, ended]
  simp only [unary, run_bind, run_current, next_some, Comparison.current same, mark]
  exact calls_nil i j s s' same bound

private theorem nonterminal_nil (layer : Layer) : Agree c 0 (nonterminal i layer) (nonterminal j layer) := by
  have base := unary_nil (c := c) i j
  cases layer with
  | equality => exact chain_nil (chain_nil (chain_nil (chain_nil base)))
  | comparison => exact chain_nil (chain_nil (chain_nil base))
  | sum => exact chain_nil (chain_nil base)
  | product => exact chain_nil base
  | unary => exact base
  | call => exact calls_nil i j
  | primary => exact primary_nil i j

private theorem block_nil : Agree c 0 (block i) (block j) :=
  (Agree.openBlock_nil i j).bind fun read => Agree.closed read

/-- At the end of the input nothing stands inside anything. -/
private theorem rules_nil : Inner.Agree c 0 (rules i) (rules j) :=
  ⟨fun precedence _ => nonterminal_nil i j precedence.layer, block_nil i j⟩

end

/-- A larger bound changes nothing. -/
private theorem upTo_agree {size larger : Nat} (le : size ≤ larger) :
    Inner.Agree .exact size (upTo size) (upTo larger) := by
  induction size generalizing larger with
  | zero => cases larger <;> exact rules_nil _ _
  | succ size ih =>
    cases larger with
    | zero => omega
    | succ larger => exact Rule.Agree.rules (ih (by omega))

private theorem parser_agree (size : Nat) : Inner.Agree .exact size parser (upTo size) := by
  constructor
  · intro precedence used s s' same bound
    subst same
    right
    rw [((upTo_agree bound).expression precedence used).run_eq (Nat.le_refl _)]
    exact ⟨rfl, rfl⟩
  · intro s s' same bound
    subst same
    right
    rw [(upTo_agree bound).block.run_eq (Nat.le_refl _)]
    exact ⟨rfl, rfl⟩

private theorem rules_eq (size : Nat) : Inner.Agree .exact size (rules parser) (upTo size) := by
  cases size with
  | zero => exact rules_nil _ _
  | succ size => exact Rule.Agree.rules (parser_agree size)

/-- Each expression of the descent is read by the rule of its layer, with the descent inside. -/
theorem parser_expression (precedence : Precedence) (used : precedence ≠ .call) :
    parser.expression precedence = nonterminal parser precedence.layer :=
  ext_run fun s => ((rules_eq _).expression precedence used).run_eq (Nat.le_refl s.tokens.length)

theorem parser_block : parser.block = block parser :=
  ext_run fun s => (rules_eq _).block.run_eq (Nat.le_refl s.tokens.length)

end Layered
end LittleScript

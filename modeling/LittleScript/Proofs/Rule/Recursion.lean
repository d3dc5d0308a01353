import LittleScript.Proofs.Rule.Balance
import LittleScript.Proofs.Rule.Congruence

/-!
The recursion of the nested rules, with no count of the levels that are left. What stands inside of something
is read with fewer tokens to go and with one more level open. So there is only one way to read it, and every
count of levels that is large enough leads to that.
-/

namespace LittleScript

open Run

structure Inner.SameAt (i j : Inner) (s : State) : Prop where
  expression : ∀ precedence, (i.expression precedence).run s = (j.expression precedence).run s
  block : i.block.run s = j.block.run s

namespace Inner
variable {i j k : Inner} {s : State}

private theorem SameAt.symm (h : i.SameAt j s) : j.SameAt i s :=
  ⟨fun precedence => (h.expression precedence).symm, h.block.symm⟩

private theorem SameAt.trans (a : i.SameAt j s) (b : j.SameAt k s) : i.SameAt k s :=
  ⟨fun precedence => (a.expression precedence).trans (b.expression precedence), a.block.trans b.block⟩

/-- Rules that read in the same way from everywhere are the same. -/
private theorem eq_of_sameAt (h : ∀ s, i.SameAt j s) : i = j := by
  have expressions : i.expression = j.expression :=
    funext fun precedence => Rule.ext_run fun s => (h s).expression precedence
  have blocks : i.block = j.block := Rule.ext_run fun s => (h s).block
  cases i
  cases j
  cases expressions
  cases blocks
  rfl

end Inner

namespace Rule

/-- A link starts on the token behind the current one. -/
theorem leads_linked (inner : Inner) (link : Link) (left : Expression) (s : State) :
    s.advance.Leads ((linked inner link left).run s).2 := by
  unfold linked
  exact leads_next advance _ s

def linksFrom (limit : Nat) (inner : Inner) (precedence : Precedence) (left : Expression) (held : Nat)
    (s : State) : Option Expression × Nat × State :=
  match _ : linkAbove? precedence s.peek.kind with
  | none => (some left, held, s)
  | some link =>
    if s.depth < limit then
      match _ : (linked inner link left).run s.takeLevel with
      | (none, t) => (none, held + 1, t)
      | (some tree, t) => linksFrom limit inner precedence tree (held + 1) t
    else (none, held, refused limit s)
termination_by s.tokens.length
decreasing_by
  have used := State.length_advance_lt (.takeLevel s)
    (proper_of_link ‹linkAbove? precedence s.peek.kind = some link›)
  have bound := (leads_linked inner link left s.takeLevel).length_le
  rw [‹(linked inner link left).run s.takeLevel = (some tree, t)›] at bound
  exact Nat.lt_of_le_of_lt bound used

private theorem leads_linksFrom (limit : Nat) (inner : Inner) (precedence : Precedence) (left : Expression)
    (held : Nat) (s : State) : s.Leads (linksFrom limit inner precedence left held s).2.2 := by
  fun_induction linksFrom limit inner precedence left held s with
  | case1 => exact .refl _
  | case2 left held s link above room t failed => exact (State.Leads.takeLevel s).trans (leads_of_run failed)
  | case3 left held s link above room tree t built ih =>
    exact (State.Leads.takeLevel s).trans ((leads_of_run built).trans ih)
  | case4 => exact .record _ _

def chained (limit : Nat) (inner : Inner) (precedence : Precedence) (left : Expression) (held : Nat) : Chain :=
  ⟨linksFrom limit inner precedence left held, leads_linksFrom limit inner precedence left held⟩

/-- The nested rules, which read what stands inside by the given ones. -/
def around (limit : Nat) (inner : Inner) : Inner where
  expression precedence := do
    record (.expressionBegun (← current) precedence)
    takeLevel limit
    (Chain.andThen (operand inner) 1 fun left => chained limit inner precedence left 1).close
  block := do
    takeLevel limit
    let read ← (openBlock inner).andReturnLevels 1
    closed read

section
variable {limit held : Nat} {inner : Inner} {precedence : Precedence} {left : Expression} {s : State}

/-- A link opens a level, reads on and leaves the level to the rest of the chain. -/
private theorem run_chained :
    (chained limit inner precedence left held).run s =
      match linkAbove? precedence s.peek.kind with
      | none => (some left, held, s)
      | some link =>
        if s.depth < limit then
          (Chain.andThen (linked inner link left) (held + 1) fun left =>
            chained limit inner precedence left (held + 1)).run s.takeLevel
        else (none, held, refused limit s) := by
  simp only [chained]
  rw [linksFrom]
  split
  · rename_i unlinked
    simp only [unlinked]
  · rename_i link above
    simp only [above]
    split
    · rw [Chain.run_andThen]
      split
      · rename_i failed
        rw [failed, Chain.next_none]
      · rename_i built
        rw [built, Chain.next_some]
    · rfl

private theorem run_chained_unlinked (h : linkAbove? precedence s.peek.kind = none) :
    (chained limit inner precedence left held).run s = (some left, held, s) := by
  rw [run_chained, h]

private theorem run_chained_refused {link : Link} (h : linkAbove? precedence s.peek.kind = some link)
    (full : ¬ s.depth < limit) :
    (chained limit inner precedence left held).run s = (none, held, refused limit s) := by
  rw [run_chained, h]
  exact if_neg full

private theorem run_chained_link {link : Link} (h : linkAbove? precedence s.peek.kind = some link)
    (room : s.depth < limit) :
    (chained limit inner precedence left held).run s =
      (Chain.andThen (linked inner link left) (held + 1) fun left =>
        chained limit inner precedence left (held + 1)).run s.takeLevel := by
  rw [run_chained, h]
  exact if_pos room

private theorem run_around_expression :
    ((around limit inner).expression precedence).run s =
      if s.depth < limit then
        (Chain.andThen (operand inner) 1 fun left => chained limit inner precedence left 1).close.run
          (entered precedence s).takeLevel
      else (none, refused limit (entered precedence s)) := by
  rw [around]
  exact run_takeLevel_bind _ (entered precedence s)

private theorem run_around_block :
    (around limit inner).block.run s =
      if s.depth < limit then ((openBlock inner).andReturnLevels 1 >>= closed).run s.takeLevel
      else (none, refused limit s) := by
  rw [around]
  exact run_takeLevel_bind _ s

end

end Rule

private def Comparison.atDepth (depth : Nat) : Comparison where
  Same s s' := s' = s ∧ s.depth = depth
  Lost _ _ := False
  tokens h := by rw [h.1]
  finish h := by rw [h.1]
  record event h := ⟨by rw [h.1], h.2⟩
  advance h := ⟨by rw [h.1], h.2⟩
  lost _ h _ := h

namespace Rule
variable {limit levels size depth held : Nat} {inner : Inner} {precedence : Precedence} {left : Expression}
  {s : State}

private theorem Agree.run_eq_atDepth {α : Type} {a b : Rule α} (h : Agree (.atDepth depth) size a b)
    (open' : s.depth = depth) (bound : s.tokens.length ≤ size) :
    b.run s = a.run s ∧ (a.run s).2.depth = depth := by
  obtain lost | ⟨value, same, still⟩ := h s s ⟨rfl, open'⟩ bound
  · exact lost.elim
  · exact ⟨Prod.ext value same, still⟩

/-- Where two rules do the same, chains go on alike behind them if they do so from where the first one ended. -/
private theorem run_andThen_congr {α : Type} {a b : Rule α} {follow goes : α → Chain}
    (first : b.run s = a.run s)
    (rest : ∀ x t, a.run s = (some x, t) → (follow x).run t = (goes x).run t) :
    (Chain.andThen a held follow).run s = (Chain.andThen b held goes).run s := by
  rw [Chain.run_andThen, Chain.run_andThen, first]
  cases run : a.run s with
  | mk value t =>
    cases value with
    | none => rfl
    | some x => exact rest x t run

/-- The nested rules close all levels that they open, so they can be compared at one depth. -/
private theorem agree_of_sameAt (room : depth ≤ limit)
    (h : ∀ t : State, t.tokens.length ≤ size → t.depth = depth → (within limit levels).SameAt inner t) :
    Inner.Agree (.atDepth depth) size (within limit levels) inner where
  expression precedence _ := by
    rintro _ s ⟨rfl, open'⟩ bound
    have same := (h s bound open').expression precedence
    have still := ((followsWithin limit levels).inner.expression precedence s).depth
    exact .inr ⟨congrArg Prod.fst same.symm, congrArg Prod.snd same.symm, still.trans open'⟩
  block := by
    rintro _ s ⟨rfl, open'⟩ bound
    have same := (h s bound open').block
    have still := (keepsLevels_block levels (Nat.le_trans (Nat.le_of_eq open') room)).depth
    exact .inr ⟨congrArg Prod.fst same.symm, congrArg Prod.snd same.symm, still.trans open'⟩

/-- With fewer than `size` tokens to go and more than `depth` levels open, `inner` reads like the nested rules
with enough levels to open. -/
private def ReadsInside (limit size depth : Nat) (inner : Inner) : Prop :=
  ∀ levels (t : State), t.tokens.length < size → depth < t.depth → limit ≤ t.depth + levels →
    (within limit levels).SameAt inner t

private theorem ReadsInside.agree (h : ReadsInside limit size depth inner) {level less : Nat} (deeper : depth < level)
    (room : level ≤ limit) (enough : limit ≤ level + levels) (fewer : less < size) :
    Inner.Agree (.atDepth level) less (within limit levels) inner := by
  apply agree_of_sameAt room
  rintro t bound rfl
  exact h levels t (Nat.lt_of_le_of_lt bound fewer) deeper enough

/-- The links of a chain can be followed without a count. -/
private theorem ReadsInside.links (h : ReadsInside limit size depth inner) (bound : s.tokens.length ≤ size)
    (deep : depth ≤ s.depth) (enough : limit ≤ s.depth + levels) :
    (links limit levels precedence left held).run s = (chained limit inner precedence left held).run s := by
  induction levels generalizing s left held with
  | zero =>
    cases above : linkAbove? precedence s.peek.kind with
    | none => rw [run_links_unlinked above, run_chained_unlinked above]
    | some link => rw [run_links_zero above, run_chained_refused above (Nat.not_lt.2 enough)]
  | succ levels ih =>
    cases above : linkAbove? precedence s.peek.kind with
    | none => rw [run_links_unlinked above, run_chained_unlinked above]
    | some link =>
      by_cases room : s.depth < limit
      · -- the link is a token of its own, so fewer tokens are left for what stands behind it
        obtain ⟨less, rfl⟩ : ∃ less, size = less + 1 := by
          have proper := List.length_pos_iff.2 (proper_of_link above)
          exact ⟨size - 1, by omega⟩
        have inside := h.agree (Nat.lt_succ_of_le deep) room (show limit ≤ s.depth + 1 + levels by omega)
          (Nat.lt_succ_self less)
        obtain ⟨same, still⟩ := (Agree.linked inside link left).run_eq_atDepth (s := s.takeLevel) rfl bound
        rw [run_links_succ above, if_pos room, run_chained_link above room]
        apply run_andThen_congr same
        intro tree t run
        rw [run] at still
        have deeper : t.depth = s.depth + 1 := still
        have shorter : t.tokens.length ≤ s.tokens.length :=
          ((State.Leads.takeLevel s).trans (leads_of_run run)).length_le
        exact ih (Nat.le_trans shorter bound) (by omega) (by omega)
      · rw [run_links_succ above, if_neg room, run_chained_refused above room]

/-- An operand is read with a level of its own, behind the first token. -/
private theorem ReadsInside.expression (h : ReadsInside limit s.tokens.length s.depth inner)
    (enough : limit ≤ s.depth + levels) :
    (Rule.expression limit levels precedence).run s = ((around limit inner).expression precedence).run s := by
  rw [run_around_expression]
  cases levels with
  | zero => exact run_expression_zero.trans (if_neg (Nat.not_lt.2 enough)).symm
  | succ levels =>
    rw [run_expression_succ]
    by_cases room : s.depth < limit
    · have reads : Agree (.atDepth (s.depth + 1)) s.tokens.length (operand (within limit levels))
          (operand inner) := by
        apply Agree.operand_of_shorter
        intro less fewer
        exact h.agree (Nat.lt_succ_self _) room (by omega) fewer
      obtain ⟨same, still⟩ := reads.run_eq_atDepth (s := (entered precedence s).takeLevel) rfl (Nat.le_refl _)
      rw [if_pos room, if_pos room, Chain.run_close, Chain.run_close, run_andThen_congr same]
      intro left t run
      rw [run] at still
      have deeper : t.depth = s.depth + 1 := still
      have shorter : t.tokens.length ≤ s.tokens.length := (leads_of_run run).length_le
      exact h.links shorter (by omega) (by omega)
    · rw [if_neg room, if_neg room]

private theorem ReadsInside.block (h : ReadsInside limit s.tokens.length s.depth inner)
    (enough : limit ≤ s.depth + levels) :
    (Rule.block limit levels).run s = (around limit inner).block.run s := by
  rw [run_around_block]
  cases levels with
  | zero => exact run_block_zero.trans (if_neg (Nat.not_lt.2 enough)).symm
  | succ levels =>
    rw [run_block_succ]
    by_cases room : s.depth < limit
    · have reads : Agree (.atDepth (s.depth + 1)) s.tokens.length (openBlock (within limit levels))
          (openBlock inner) := by
        apply Agree.openBlock_of_shorter
        intro less fewer
        exact h.agree (Nat.lt_succ_self _) room (by omega) fewer
      obtain ⟨same, -⟩ := reads.run_eq_atDepth (s := s.takeLevel) rfl (Nat.le_refl _)
      rw [if_pos room, if_pos room, run_bind, run_bind, run_andReturnLevels, run_andReturnLevels, same]
    · rw [if_neg room, if_neg room]

/-- What stands inside is read with fewer tokens to go and with one more level open, or not at all. -/
private theorem ReadsInside.around (h : ReadsInside limit s.tokens.length s.depth inner)
    (enough : limit ≤ s.depth + levels) : (within limit levels).SameAt (around limit inner) s :=
  ⟨fun _ => h.expression enough, h.block enough⟩

/-- Any count of levels that is large enough leads to the same rules. -/
theorem sameAt_of_enough (enough : limit ≤ s.depth + levels) :
    (within limit levels).SameAt (within limit limit) s := by
  induction tokens : s.tokens.length using Nat.strongRecOn generalizing s levels with
  | ind size ih =>
    subst tokens
    have inside : ReadsInside limit s.tokens.length s.depth (within limit limit) :=
      fun levels t fewer _ enough => ih _ fewer enough rfl
    exact (inside.around enough).trans (inside.around (Nat.le_add_left limit s.depth)).symm

/-- Rules read like the nested ones if those that they read inside by do, with fewer tokens to go and further in. -/
theorem sameAt_around {rules : Inner}
    (h : ∀ t : State, t.tokens.length < s.tokens.length → s.depth < t.depth →
      rules.SameAt (within limit limit) t) :
    (around limit rules).SameAt (within limit limit) s := by
  have inside : ReadsInside limit s.tokens.length s.depth rules :=
    fun levels t fewer deeper enough => (sameAt_of_enough enough).trans (h t fewer deeper).symm
  exact (inside.around (Nat.le_add_left limit s.depth)).symm

/-- The recursion of the nested rules has one solution, those with as many levels as there are. -/
theorem eq_around_iff {rules : Inner} : rules = around limit rules ↔ rules = within limit limit := by
  refine ⟨fun solved => ?_, ?_⟩
  · apply Inner.eq_of_sameAt
    intro s
    -- by induction on the tokens to go, whatever the depth: each side reads inside by rules that are the same
    induction tokens : s.tokens.length using Nat.strongRecOn generalizing s with
    | ind size ih =>
      subst tokens
      rw [solved]
      exact sameAt_around fun t fewer _ => ih _ fewer t rfl
  · rintro rfl
    apply Inner.eq_of_sameAt
    intro s
    exact (sameAt_around fun t _ _ => ⟨fun _ => rfl, rfl⟩).symm

/-- A statement reads what stands inside behind its first token. -/
theorem run_statement_eq {rules : Inner}
    (h : ∀ t : State, t.tokens.length < s.tokens.length → rules.SameAt (within limit limit) t) :
    (statement rules).run s = (statement (within limit limit)).run s := by
  have reads : Agree .exact s.tokens.length (statement (within limit limit)) (statement rules) := by
    apply Agree.statement_of_shorter
    intro less fewer
    constructor
    · rintro precedence _ _ t rfl bound
      have same := (h t (Nat.lt_of_le_of_lt bound fewer)).expression precedence
      exact .inr ⟨congrArg Prod.fst same, congrArg Prod.snd same⟩
    · rintro _ t rfl bound
      have same := (h t (Nat.lt_of_le_of_lt bound fewer)).block
      exact .inr ⟨congrArg Prod.fst same, congrArg Prod.snd same⟩
  exact reads.run_eq (Nat.le_refl _)

end Rule
end LittleScript

import LittleScript.Proofs.Rule.Abreast.Language

/-!
The nested rules stay abreast level by level. Both runs have the same levels open, so they are refused one
more at the same token.
-/

namespace LittleScript.Rule

open Run

variable {c : Surroundings} {limit levels : Nat} {s t : State}

private structure ChainAbreast (c : Surroundings) (a b : Chain) (s t : State) : Prop where
  value : (b.run t).1 = (a.run s).1.map (Expression.relocate c.move)
  held : (b.run t).2.1 = (a.run s).2.1
  beside : (a.run s).2.2.Beside c (b.run t).2.2
  inside : (a.run s).1.isSome = true → (a.run s).2.2.Inside

namespace ChainAbreast
variable {a b : Chain} {held : Nat}

private theorem of_run_eq {a' b' : Chain} {u v : State} (h : ChainAbreast c a' b' u v)
    (first : a.run s = a'.run u) (second : b.run t = b'.run v) : ChainAbreast c a b s t := by
  refine ⟨?_, ?_, ?_, ?_⟩
  · rw [first, second, h.value]
  · rw [first, second, h.held]
  · rw [first, second]
    exact h.beside
  · rw [first]
    exact h.inside

private theorem done (left : Expression) (beside : s.Beside c t) (inside : s.Inside) :
    ChainAbreast c (.done left held) (.done (left.relocate c.move) held) s t :=
  ⟨rfl, rfl, beside, fun _ => inside⟩

private theorem andThen {α : Type} {move : α → α} {rule rule' : Rule α} {follow follow' : α → Chain}
    (first : Abreast c move rule rule' State.Inside s t)
    (second : ∀ x s' t', s'.Beside c t' → s'.Inside → ChainAbreast c (follow x) (follow' (move x)) s' t') :
    ChainAbreast c (.andThen rule held follow) (.andThen rule' held follow') s t := by
  have value := first.value
  have beside := first.beside
  have inside := first.good
  cases run : rule.run s with
  | mk built u =>
    cases run' : rule'.run t with
    | mk built' v =>
      rw [run, run'] at value beside
      rw [run] at inside
      obtain rfl : built' = built.map move := value
      cases built with
      | none =>
        refine ⟨?_, ?_, ?_, ?_⟩
        all_goals simp only [Chain.run_andThen, run, run', Chain.next_none, Option.map_none]
        · exact beside
        · exact fun built => by cases built
      | some x =>
        apply (second x u v beside (inside rfl)).of_run_eq
        · rw [Chain.run_andThen, run, Chain.next_some]
        · rw [Chain.run_andThen, run', Option.map_some, Chain.next_some]

private theorem close (h : ChainAbreast c a b s t) :
    Abreast c (Expression.relocate c.move) a.close b.close State.Inside s t := by
  refine ⟨h.value, ?_, h.inside⟩
  rw [Chain.run_close, Chain.run_close, h.held]
  exact h.beside.returnLevels _

/-- No level is left for one more link. -/
private theorem refused (run : a.run s = (none, held, refused limit s))
    (run' : b.run t = (none, held, refused limit t)) (beside : s.Beside c t) : ChainAbreast c a b s t := by
  have same : Abreast c (Expression.relocate c.move) (refuseLevel limit) (refuseLevel limit) State.Inside
      s t := .refuseLevel limit beside
  refine ⟨?_, ?_, ?_, ?_⟩
  · rw [run, run']
    rfl
  · rw [run, run']
  · rw [run, run']
    exact same.beside
  · rw [run]
    exact fun built => by cases built

end ChainAbreast

private structure AbreastWithin (c : Surroundings) (limit levels : Nat) : Prop where
  inner : (within limit levels).Abreast c
  links : ∀ precedence left held s t, s.Beside c t → s.Inside →
    ChainAbreast c (links limit levels precedence left held)
      (links limit levels precedence (left.relocate c.move) held) s t

/-- A chain goes on by links behind its operand, or behind the operand of its last link. -/
private theorem AbreastWithin.andLinks (h : AbreastWithin c limit levels) (precedence : Precedence) (held : Nat)
    {rule rule' : Rule Expression}
    (first : Abreast c (Expression.relocate c.move) rule rule' State.Inside s t) :
    ChainAbreast c (.andThen rule held fun left => Rule.links limit levels precedence left held)
      (.andThen rule' held fun left => Rule.links limit levels precedence left held) s t := by
  apply ChainAbreast.andThen first
  intro left s t beside inside
  exact h.links precedence left held s t beside inside

/-- Where no link follows, a chain ends in both runs. -/
private theorem chainAbreast_unlinked {precedence : Precedence} {left : Expression} {held : Nat}
    (beside : s.Beside c t) (inside : s.Inside) (h : linkAbove? precedence s.peek.kind = none) :
    ChainAbreast c (links limit levels precedence left held)
      (links limit levels precedence (left.relocate c.move) held) s t := by
  have h' : linkAbove? precedence t.peek.kind = none := by rw [beside.peek_kind inside, h]
  exact (ChainAbreast.done left beside inside).of_run_eq (run_links_unlinked h) (run_links_unlinked h')

private theorem abreastWithin_zero (c : Surroundings) (limit : Nat) : AbreastWithin c limit 0 where
  inner := by
    refine ⟨fun precedence s t beside => ?_, fun s t beside _ => ?_⟩
    · have entry : (entered precedence s).Beside c (entered precedence t) := beside.record rfl rfl
      exact (Abreast.refuseLevel limit entry).of_run_eq run_expression_zero run_expression_zero
    · exact (Abreast.refuseLevel limit beside).of_run_eq run_block_zero run_block_zero
  links precedence left held s t beside inside := by
    cases above : linkAbove? precedence s.peek.kind with
    | none => exact chainAbreast_unlinked beside inside above
    | some link =>
      have above' : linkAbove? precedence t.peek.kind = some link := by rw [beside.peek_kind inside, above]
      exact .refused (run_links_zero above) (run_links_zero above') beside

private theorem abreastWithin_succ (h : AbreastWithin c limit levels) : AbreastWithin c limit (levels + 1) where
  inner := by
    refine ⟨fun precedence s t beside => ?_, fun s t beside opens => .block h.inner beside opens⟩
    have entry : (entered precedence s).Beside c (entered precedence t) := beside.record rfl rfl
    by_cases room : s.depth < limit
    · have room' : t.depth < limit := by rw [beside.depth]; exact room
      apply (h.andLinks precedence 1 (Abreast.operand h.inner entry.takeLevel)).close.of_run_eq
      · exact run_expression_succ.trans (if_pos room)
      · exact run_expression_succ.trans (if_pos room')
    · have room' : ¬ t.depth < limit := by rw [beside.depth]; exact room
      apply (Abreast.refuseLevel limit entry).of_run_eq
      · exact run_expression_succ.trans (if_neg room)
      · exact run_expression_succ.trans (if_neg room')
  links precedence left held s t beside inside := by
    cases above : linkAbove? precedence s.peek.kind with
    | none => exact chainAbreast_unlinked beside inside above
    | some link =>
      have above' : linkAbove? precedence t.peek.kind = some link := by rw [beside.peek_kind inside, above]
      by_cases room : s.depth < limit
      · have room' : t.depth < limit := by rw [beside.depth]; exact room
        have follows : s.peek.kind ≠ .semicolon := by
          intro stop
          rw [stop] at above
          cases above
        have first := Abreast.linked h.inner link left beside.takeLevel inside follows
        apply (h.andLinks precedence (held + 1) first).of_run_eq
        · rw [run_links_succ above, if_pos room]
        · rw [run_links_succ above', if_pos room']
      · have room' : ¬ t.depth < limit := by rw [beside.depth]; exact room
        have run := (@run_links_succ limit levels precedence left held s link above).trans (if_neg room)
        have run' := (@run_links_succ limit levels precedence (left.relocate c.move) held t link above').trans
          (if_neg room')
        exact .refused run run' beside

private theorem abreastWithin (c : Surroundings) (limit levels : Nat) : AbreastWithin c limit levels := by
  induction levels with
  | zero => exact abreastWithin_zero c limit
  | succ levels ih => exact abreastWithin_succ ih

/-- The statements of a program stay abreast. -/
theorem abreast_topStatement (limit : Nat) (beside : s.Beside c t) :
    Abreast c (Statement.relocate c.move) (topStatement limit) (topStatement limit) State.Anywhere s t :=
  .topStatement (abreastWithin c limit limit).inner beside

end LittleScript.Rule

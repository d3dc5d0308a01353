import LittleScript.Parsed
import LittleScript.Proofs.Rule.Accounting.Language
import LittleScript.Proofs.Rule.Nested

/-!
What the nested rules read as numbers, level by level. A whole run accounts for its numbers, and if it reports
nothing its program has those that were looked for as operands.
-/

namespace LittleScript

open Run

private structure Chain.AccountsAt (front : List (Token × Int)) (chain : Chain) (s : State) : Prop where
  kept : (chain.run s).2.2.journal.Accounts
  adds : s.Silent (chain.run s).2.2 →
    ∃ tree held t, chain.run s = (some tree, held, t) ∧ s.Adds t front tree.numbers

namespace Chain.AccountsAt
variable {α : Type} {front mid : List (Token × Int)} {rule : Rule α} {view : α → List (Token × Int)}
  {chain : Chain} {held : Nat} {follow : α → Chain} {s t : State}

/-- Something is reported. -/
private theorem of_heard (run : chain.run s = (none, held, t)) (kept : t.journal.Accounts) (heard : ¬ s.Silent t) :
    chain.AccountsAt front s := by
  refine ⟨by rw [run]; exact kept, fun silent => ?_⟩
  rw [run] at silent
  exact absurd silent heard

/-- The chain goes on as another one does from a later state. -/
private theorem enter {other : Chain} (run : chain.run s = other.run t) (unheard : s.Silent t)
    (added : s.Adds t front mid)
    (h : other.AccountsAt mid t) : chain.AccountsAt front s := by
  refine ⟨by rw [run]; exact h.kept, fun silent => ?_⟩
  rw [run] at silent ⊢
  obtain ⟨tree, count, u, run', more⟩ := h.adds (Eq.trans silent (Eq.symm unheard))
  exact ⟨tree, count, u, run', added.trans more⟩

private theorem andThen (first : Rule.AccountsAt front rule view s)
    (second : ∀ a t, t.journal.Accounts → (follow a).AccountsAt (view a) t) :
    (Chain.andThen rule held follow).AccountsAt front s where
  kept := by
    have before := first.kept
    rw [run_andThen]
    cases run : rule.run s with
    | mk value t =>
      rw [run] at before
      cases value with
      | none => exact before
      | some a => exact (second a t before).kept
  adds silent := by
    obtain ⟨a, t, ⟨kept, added⟩, same, behind⟩ := Rule.silent_chain first.ensures silent
    obtain ⟨tree, count, u, run', more⟩ := (second a t kept).adds behind
    exact ⟨tree, count, u, same.trans run', added.trans more⟩

/-- The levels of a chain are closed behind it. -/
private theorem close (h : chain.AccountsAt front s) : Rule.AccountsAt front chain.close Expression.numbers s where
  kept := h.kept.record rfl rfl
  adds silent := by
    have ended := State.diagnostics_returnLevels (chain.run s).2.2 (chain.run s).2.1
    obtain ⟨tree, count, t, run, added⟩ := h.adds (Eq.trans ended.symm silent)
    have kept := h.kept
    rw [run] at kept
    refine ⟨tree, t.returnLevels count, ?_, added.trans (.returnLevels kept count)⟩
    rw [run_close, run]

end Chain.AccountsAt

namespace Rule
variable {limit levels held : Nat} {precedence : Precedence} {left : Expression} {s : State}

private structure AccountsWithin (limit levels : Nat) : Prop where
  inner : (within limit levels).Accounts
  links : ∀ precedence left held s, s.journal.Accounts →
    (links limit levels precedence left held).AccountsAt left.numbers s

private theorem accounts_refused (h : s.journal.Accounts) : (refused limit s).journal.Accounts := h.record rfl rfl

/-- Where no link follows, nothing more is looked for. -/
private theorem accountsAt_unlinked (ends : linkAbove? precedence s.peek.kind = none) (h : s.journal.Accounts) :
    (links limit levels precedence left held).AccountsAt left.numbers s := by
  have run : (links limit levels precedence left held).run s = (some left, held, s) := run_links_unlinked ends
  exact ⟨by rw [run]; exact h, fun _ => ⟨left, held, s, run, .still rfl⟩⟩

/-- A move to the next token and the entry for an expression there. -/
private theorem quiet_entered (s : State) (precedence : Precedence) : s.Quiet (entered precedence s.advance) :=
  s.quiet_advance.trans (s.advance.quiet_record _ rfl)

/-- An expression that is refused its level looks for no operand. -/
private theorem accountsAt_expression_refused {rule : Rule Expression}
    (run : rule.run s.advance = (none, refused limit (entered precedence s.advance))) (h : s.journal.Accounts) :
    AccountsAt [] (advance >>= fun _ => rule) Expression.numbers s := by
  have moved : s.advance.journal.Accounts := h.record rfl rfl
  refine .of_heard run (moved.refused rfl) fun silent => ?_
  exact State.not_silent_diagnosed _ _ (Eq.trans silent (Eq.symm (quiet_entered s precedence).silent))

private theorem accountsWithin_zero (limit : Nat) : AccountsWithin limit 0 where
  inner := by
    refine ⟨fun precedence s h => accountsAt_expression_refused run_expression_zero h, fun s h => ?_⟩
    exact .of_heard run_block_zero (accounts_refused h) (s.not_silent_diagnosed _)
  links precedence left held s h := by
    cases above : linkAbove? precedence s.peek.kind with
    | none => exact accountsAt_unlinked above h
    | some link => exact .of_heard (run_links_zero above) (accounts_refused h) (s.not_silent_diagnosed _)

private theorem accountsWithin_succ (h : AccountsWithin limit levels) : AccountsWithin limit (levels + 1) where
  inner := by
    refine ⟨fun precedence s before => ?_, fun s before => ?_⟩
    · by_cases room : s.advance.depth < limit
      · have sought : (entered precedence s.advance).takeLevel.journal.Awaits s.advance.current := before.awaits
        have unheard : s.Silent (entered precedence s.advance).takeLevel :=
          Eq.trans (State.diagnostics_takeLevel _) (quiet_entered s precedence).silent
        refine .enter (run_expression_succ.trans (if_pos room)) unheard (.sought before precedence)
          (Chain.AccountsAt.close ?_)
        exact .andThen (accountsAt_operand h.inner sought) fun left t kept => h.links precedence left 1 t kept
      · exact accountsAt_expression_refused (run_expression_succ.trans (if_neg room)) before
    · by_cases room : s.depth < limit
      · have opened : s.takeLevel.journal.Accounts := before.record rfl rfl
        have body := ((Accounts.openBlock h.inner).andReturnLevels 1).bind Accounts.closed
        exact .enter (run_block_succ.trans (if_pos room)) (State.diagnostics_takeLevel s) (.takeLevel before)
          (body _ opened)
      · exact .of_heard (run_block_succ.trans (if_neg room)) (accounts_refused before) (s.not_silent_diagnosed _)
  links precedence left held s before := by
    cases above : linkAbove? precedence s.peek.kind with
    | none => exact accountsAt_unlinked above before
    | some link =>
      by_cases room : s.depth < limit
      · have opened : s.takeLevel.journal.Accounts := before.record rfl rfl
        refine .enter ((run_links_succ above).trans (if_pos room)) (State.diagnostics_takeLevel s)
          (.takeLevel before) ?_
        exact .andThen (Accounts.linked h.inner link left _ opened) fun tree t kept =>
          h.links precedence tree (held + 1) t kept
      · exact .of_heard ((run_links_succ above).trans (if_neg room)) (accounts_refused before)
          (s.not_silent_diagnosed _)

private theorem accountsWithin (limit levels : Nat) : AccountsWithin limit levels := by
  induction levels with
  | zero => exact accountsWithin_zero limit
  | succ levels ih => exact accountsWithin_succ ih

end Rule

namespace Parsed

/-- In the end a whole run accounts for its numbers. -/
theorem accounts_ofStream (limit : Nat) (stream : TokenStream) : (ofStream limit stream).journal.Accounts :=
  (Rule.Accounts.tallies_topStatement (Rule.accountsWithin limit limit).inner).kept_sequenceFrom _ []
    (State.start stream .empty) Journal.accounts_empty

/-- If nothing was reported, the numbers of the program are those that were looked for as operands. -/
theorem numbers_of_silent {limit : Nat} {stream : TokenStream} (silent : (ofStream limit stream).diagnostics = []) :
    (ofStream limit stream).program.numbers = (ofStream limit stream).journal.numbers := by
  obtain ⟨added, numbers, all⟩ :=
    (Rule.Accounts.tallies_topStatement (Rule.accountsWithin limit limit).inner).adds_sequenceFrom (fun _ => false) []
      (State.start stream .empty) Journal.accounts_empty silent
  exact (Statement.numbers_allNodes _).trans (all.symm.trans numbers.symm)

end Parsed
end LittleScript

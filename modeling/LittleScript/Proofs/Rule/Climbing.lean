import LittleScript.Proofs.Rule.Reading

/-!
Runs through a chain of links of which the first part is known. The levels that its links hold stay
open, so a part of a chain is read by handing on to the rest of the chain.
-/

namespace LittleScript.Rule

open Run

abbrev climb (limit levels : Nat) (precedence : Precedence) : Chain :=
  .andThen (operand (within limit levels)) 1 fun left => links limit levels precedence left 1

/-- From `s`, a chain with `levels` free levels needs `peak` of them up to the `tree`, of which it
holds `held`. The rest of the chain goes on in front of the tokens `rest`. -/
structure Climbs (limit levels : Nat) (precedence : Precedence) (s : State) (peak : Nat)
    (tree : Expression) (held : Nat) (rest : List Token) : Prop where
  fits : peak ≤ levels → ∃ t free, free + held = levels ∧ t.ahead = rest ∧
    t.depth = s.depth + held ∧ t.finish = s.finish ∧ s.Silent t ∧ s.Leads t ∧
    (climb limit levels precedence).run s = (links limit free precedence tree (held + 1)).run t
  exceeds : levels < peak → s.TooDeep limit ((climb limit levels precedence).run s).2.2

variable {limit levels peak high held : Nat} {precedence : Precedence} {tree left : Expression}
  {s : State} {rest : List Token}

/-- A chain starts with its first operand. -/
theorem Climbs.operand (h : Reads limit levels (operand (within limit levels)) s peak tree (· = rest)) :
    Climbs limit levels precedence s peak tree 0 rest := by
  refine ⟨fun le => ?_, fun lt => ?_⟩
  · obtain ⟨t, run, quiet, reached⟩ := h.fits le
    refine ⟨t, levels, rfl, reached, quiet.depth, quiet.finish, quiet.silent, leads_of_run run, ?_⟩
    rw [Chain.run_andThen, run, Chain.next_some]
  · exact (h.exceeds lt).extend (.refl s) (leads_chain _ 1 _ s)

/-- A link takes a level for the rest of the chain, and what stands behind it is read with the levels
that are left. -/
theorem Climbs.link {link : Link} {token : Token} {middle : List Token}
    (first : Climbs limit levels precedence s peak left held (token :: middle))
    (above : linkAbove? precedence token.kind = some link) (base : s.depth + levels = limit)
    (second : ∀ free t, t.ahead = token :: middle → t.depth + free = limit →
      Reads limit free (linked (within limit free) link left) t high tree (· = rest)) :
    Climbs limit levels precedence s (max peak (held + 1 + high)) tree (held + 1) rest := by
  by_cases room : peak ≤ levels
  · obtain ⟨t, free, total, ahead, depth, finish, silent, led, run⟩ := first.fits room
    have seen : linkAbove? precedence t.peek.kind = some link := by
      rw [State.peek_of_ahead ahead, above]
    cases free with
    | zero =>
      refine ⟨fun le => by omega, fun _ => ?_⟩
      rw [run, run_links_zero seen]
      exact (State.tooDeep_refused limit t).extend led (.refl _)
    | succ free =>
      have opens : t.depth < limit := by omega
      have goes := second free t.takeLevel ahead (by rw [State.depth_takeLevel]; omega)
      have same : (climb limit levels precedence).run s =
          (Chain.andThen (linked (within limit free) link left) (held + 1 + 1) fun left =>
            links limit free precedence left (held + 1 + 1)).run t.takeLevel := by
        rw [run, run_links_succ seen, if_pos opens]
      refine ⟨fun le => ?_, fun lt => ?_⟩
      · obtain ⟨u, built, quiet, reached⟩ := goes.fits (by omega)
        refine ⟨u, free, by omega, reached, ?_, ?_, ?_, ?_, ?_⟩
        · rw [quiet.depth, State.depth_takeLevel, depth, Nat.add_assoc]
        · exact quiet.finish.trans finish
        · exact Eq.trans quiet.silent ((State.diagnostics_takeLevel t).trans silent)
        · exact (led.trans (.takeLevel t)).trans (leads_of_run built)
        · rw [same, Chain.run_andThen, built, Chain.next_some]
      · rw [same]
        exact (goes.exceeds (by omega)).extend (led.trans (.takeLevel t)) (leads_chain _ _ _ _)
  · refine ⟨fun le => absurd le (by omega), fun _ => ?_⟩
    exact first.exceeds (by omega)

/-- An expression takes a level, reads its chain and ends where no link follows. -/
theorem Climbs.expression
    (h : ∀ levels t, t.tokens = s.tokens → t.depth + levels = limit →
      Climbs limit levels precedence t peak tree held rest)
    (ends : linkAbove? precedence (headKind rest) = none) (base : s.depth + levels = limit) :
    Reads limit levels (expression limit levels precedence) s (peak + 1) tree (· = rest) := by
  cases levels with
  | zero =>
    refine ⟨fun le => by omega, fun _ => ?_⟩
    rw [run_expression_zero]
    exact (State.tooDeep_refused limit _).extend (.record s _) (.refl _)
  | succ levels =>
    have opens : s.depth < limit := by omega
    have quiet := s.quiet_record (.expressionBegun s.current precedence) rfl
    have led : s.Leads (entered precedence s).takeLevel := (State.Leads.record s _).trans (.takeLevel _)
    have goes := h levels (entered precedence s).takeLevel rfl (by
      rw [State.depth_takeLevel, State.depth_record]
      omega)
    refine ⟨fun le => ?_, fun lt => ?_⟩
    · obtain ⟨t, free, total, ahead, depth, finish, silent, -, run⟩ := goes.fits (by omega)
      have last : (links limit free precedence tree (held + 1)).run t = (some tree, held + 1, t) :=
        run_links_unlinked (by rw [State.peek_kind, ahead, ends])
      refine ⟨t.returnLevels (held + 1), ?_, ⟨finish, ?_, ?_⟩, ahead⟩
      · rw [run_expression_succ, if_pos opens, Chain.run_close, run, last]
      · rw [State.depth_returnLevels, depth, State.depth_takeLevel, State.depth_record]
        omega
      · exact (State.diagnostics_returnLevels t _).trans
          (Eq.trans silent ((State.diagnostics_takeLevel _).trans quiet.silent))
    · rw [run_expression_succ, if_pos opens]
      exact (goes.exceeds (by omega)).extend led (.returnLevels _ _)

end LittleScript.Rule

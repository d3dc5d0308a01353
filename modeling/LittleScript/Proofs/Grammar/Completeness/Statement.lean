import LittleScript.Proofs.Grammar.Beginning
import LittleScript.Proofs.Grammar.Completeness.Phrase

/-!
Statements, sequences of them and blocks are read as the grammar derives them. A semicolon behind a
function may be used up by the function or be a stray token of what follows.
-/

namespace LittleScript.Grammar

open Run Rule

section
variable {low high peak : Nat} {tokens front back : List Token} {token opening closing : Token}

theorem completes_noAlternative : Completes (.alternative none) [] 0 := by
  intro limit levels s rest follows ahead _
  apply Reads.step (run_peek s) (.refl s)
  rw [if_neg (by rw [State.peek_kind, ahead]; exact follows rfl)]
  exact .done ahead

theorem completes_otherwise {tree : Block} (word : token.kind = .elseWord)
    (block : Completes (.block tree) tokens peak) :
    Completes (.alternative (some tree)) (token :: tokens) peak := by
  intro limit levels s rest _ ahead base
  rw [List.cons_append] at ahead
  apply Reads.step (run_peek s) (.refl s)
  rw [if_pos (by rw [State.peek_of_ahead ahead, word])]
  apply Reads.step (run_advance s) s.quiet_advance
  have inside := block limit levels s.advance rest trivial (State.ahead_advance ahead) base
  apply inside.andThen
  intro t _ left
  exact .done left

/-- A statement is read by the rule for its first token, on which the run stands. -/
private theorem completes_statement {tree : Statement} {others : List Token}
    (reads : ∀ limit levels s rest, (tree.openEnded = true → headKind rest ≠ .elseWord) →
      s.current = token → s.ahead = others ++ rest → s.depth + levels = limit →
      Reads limit levels (statementOn (within limit levels) token) s peak tree (LeftOf rest)) :
    Completes (.statement tree) (token :: others) peak := by
  intro limit levels s rest follows all base
  rw [List.cons_append] at all
  apply Reads.step (run_current s) (.refl s)
  apply Reads.step (run_peek s) (.refl s)
  apply Reads.step (run_record _ s) (s.quiet_record _ rfl)
  rw [State.current_of_tokens all]
  apply Reads.andRecord _ fun _ => rfl
  have current := State.current_of_tokens all
  exact reads limit levels (s.record _) rest follows current (State.ahead_of_tokens all) base

private theorem reads_assigned {sign stop : Token} {value : Expression} (assigns : sign.kind = .assign)
    (right : Completes (.whole value) tokens peak) (stops : stop.kind = .semicolon) :
    ReadsAhead assigned (sign :: (tokens ++ [stop])) peak value fun _ => True := by
  intro limit levels s rest _ ahead base
  rw [List.cons_append, List.append_assoc] at ahead
  apply Reads.expected ahead assigns
  have inside := right limit levels s.advance _ (unlinked_of_kind stops rfl) (State.ahead_advance ahead) base
  apply inside.andThen
  intro t _ left
  apply Reads.expected left stops
  exact .done (State.ahead_advance left)

theorem completes_binding {word name sign stop : Token} {value : Expression}
    (kind : word.kind = .letWord) (named : name.kind = .identifier) (assigns : sign.kind = .assign)
    (right : Completes (.whole value) tokens peak) (stops : stop.kind = .semicolon) :
    Completes (.statement (.binding word (Name.ofToken name) value))
      (word :: name :: sign :: (tokens ++ [stop])) peak := by
  apply completes_statement
  intro limit levels s rest _ current ahead base
  rw [List.cons_append] at ahead
  simp only [statementOn, kind]
  apply Reads.current current
  apply Reads.expected ahead named
  have inside := reads_assigned assigns right stops limit levels s.advance rest trivial
    (State.ahead_advance ahead) base
  apply inside.andThen
  intro t _ left
  exact .done (.inl left)

theorem completes_answer {word stop : Token} {value : Expression} (kind : word.kind = .returnWord)
    (right : Completes (.whole value) tokens peak) (stops : stop.kind = .semicolon) :
    Completes (.statement (.answer word value)) (word :: (tokens ++ [stop])) peak := by
  apply completes_statement
  intro limit levels s rest _ current ahead base
  rw [List.append_assoc] at ahead
  simp only [statementOn, kind]
  apply Reads.current current
  have inside := right limit levels s _ (unlinked_of_kind stops rfl) ahead base
  apply inside.andThen
  intro t _ left
  apply Reads.expected left stops
  exact .done (.inl (State.ahead_advance left))

theorem completes_assignment {name sign stop : Token} {value : Expression}
    (named : name.kind = .identifier) (assigns : sign.kind = .assign)
    (right : Completes (.whole value) tokens peak) (stops : stop.kind = .semicolon) :
    Completes (.statement (.assignment name (Name.ofToken name) value))
      (name :: sign :: (tokens ++ [stop])) peak := by
  apply completes_statement
  intro limit levels s rest _ current ahead base
  simp only [statementOn, named]
  apply Reads.current current
  have inside := reads_assigned assigns right stops limit levels s rest trivial ahead base
  apply inside.andThen
  intro t _ left
  exact .done (.inl left)

theorem completes_conditional {word : Token} {condition : Expression} {consequence : Block}
    {other : Option Block} {guard : List Token} {mid : Nat} (kind : word.kind = .ifWord)
    (opens : opening.kind = .leftParen) (test : Completes (.whole condition) guard low)
    (closes : closing.kind = .rightParen) (block : Completes (.block consequence) front mid)
    (alternative : Completes (.alternative other) back high) :
    Completes (.statement (.conditional word condition consequence other))
      (word :: opening :: (guard ++ closing :: (front ++ back))) (max low (max mid high)) := by
  apply completes_statement
  intro limit levels s rest follows current ahead base
  rw [List.cons_append, List.append_assoc, List.cons_append, List.append_assoc] at ahead
  simp only [statementOn, kind]
  apply Reads.current current
  apply Reads.expected ahead opens
  have first := test limit levels s.advance _ (unlinked_of_kind closes rfl)
    (State.ahead_advance ahead) base
  apply first.bind
  intro t quiet left
  apply Reads.expected left closes
  have second := block limit levels t.advance _ trivial (State.ahead_advance left)
    (by rw [State.depth_advance, quiet.depth, State.depth_advance, base])
  apply second.bind
  intro u quiet' left
  have open_end : other = none → headKind rest ≠ .elseWord := by
    rintro rfl
    exact follows rfl
  have third := alternative limit levels u rest open_end left
    (by rw [quiet'.depth, State.depth_advance, quiet.depth, State.depth_advance, base])
  apply third.andThen
  intro v _ left
  exact .done (.inl left)

/-- A function as a statement. A semicolon that follows is used up. -/
theorem completes_procedure {parameters : List Name} {body : Block}
    (function : Completes (.function token parameters body) tokens peak) :
    Completes (.statement (.function token parameters body)) tokens peak := by
  obtain ⟨others, rfl, word, signature⟩ := function
  apply completes_statement
  intro limit levels s rest _ current ahead base
  simp only [statementOn, word]
  apply Reads.current current
  apply (signature limit levels s rest trivial ahead base).andThen
  intro t _ left
  apply Reads.step (run_peek t) (.refl t)
  dsimp only
  by_cases semicolon : t.peek.kind = .semicolon
  · rw [if_pos semicolon]
    apply Reads.step (run_advance t) t.quiet_advance
    have shown := State.ahead_of_peek (s := t) (by rw [semicolon]; decide)
    exact .done (.inr ⟨t.peek, semicolon, left.symm.trans shown⟩)
  · rw [if_neg semicolon]
    exact .done (.inl left)

theorem completes_stopped {parameters : List Name} {body : Block} {stop : Token}
    (function : Completes (.function token parameters body) tokens peak)
    (stops : stop.kind = .semicolon) :
    Completes (.statement (.function token parameters body)) (tokens ++ [stop]) peak := by
  obtain ⟨others, rfl, word, signature⟩ := function
  rw [List.cons_append]
  apply completes_statement
  intro limit levels s rest _ current ahead base
  rw [List.append_assoc] at ahead
  simp only [statementOn, word]
  apply Reads.current current
  apply (signature limit levels s _ trivial ahead base).andThen
  intro t _ left
  apply Reads.step (run_peek t) (.refl t)
  dsimp only
  rw [if_pos (by rw [State.peek_of_ahead left, stops])]
  apply Reads.step (run_advance t) t.quiet_advance
  exact .done (.inl (State.ahead_advance left))

end

section
variable {limit levels low high : Nat} {item : Rule Statement} {stops : Kind → Bool}
  {found : List Statement} {s : State} {trees : List Statement} {rest : List Token}

/-- A statement is put in front of those behind it. -/
private theorem Collects.statement {tree : Statement} {left : List Token → Prop} (proper : s.tokens ≠ [])
    (goes : stops s.current.kind = false) (first : Reads limit levels item s low tree left)
    (others : ∀ t, s.Quiet t → left t.tokens →
      Collects limit levels item stops (tree :: found) t high trees rest) :
    Collects limit levels item stops found s (max low high) (tree :: trees) rest := by
  by_cases room : low ≤ levels
  · obtain ⟨t, run, quiet, reached⟩ := first.fits room
    have behind := others t.advance (quiet.trans t.quiet_advance) reached
    have same : sequenceFrom item stops found s = sequenceFrom item stops (tree :: found) t.advance := by
      rw [sequenceFrom_step proper goes, run]
      rfl
    refine ⟨fun le => ?_, fun lt => ?_⟩
    · obtain ⟨u, collected, quiet', ended⟩ := behind.fits (by omega)
      refine ⟨u, ?_, (quiet.trans t.quiet_advance).trans quiet', ended⟩
      rw [same, collected, List.reverse_cons, List.append_assoc, List.singleton_append]
    · rw [same]
      exact (behind.exceeds (by omega)).extend ((leads_of_run run).trans (.advance t)) (.refl _)
  · refine ⟨fun le => absurd le (by omega), fun _ => ?_⟩
    rw [sequenceFrom_step proper goes]
    exact (first.exceeds (by omega)).extend (.refl s)
      ((State.Leads.advance _).trans (leads_sequenceFrom item stops _ _))

/-- A token that is left out is followed by the same statements. -/
private theorem Collects.skip {t : State} (proper : s.tokens ≠ []) (goes : stops s.current.kind = false)
    (run : item.run s = (none, t)) (quiet : s.Quiet t)
    (others : Collects limit levels item stops found t.advance high trees rest) :
    Collects limit levels item stops found s high trees rest := by
  have same : sequenceFrom item stops found s = sequenceFrom item stops found t.advance := by
    rw [sequenceFrom_step proper goes, run]
    rfl
  refine ⟨fun le => ?_, fun lt => ?_⟩
  · obtain ⟨u, collected, quiet', ended⟩ := others.fits le
    exact ⟨u, same.trans collected, (quiet.trans t.quiet_advance).trans quiet', ended⟩
  · rw [same]
    exact (others.exceeds lt).extend ((leads_of_run run).trans (.advance t)) (.refl _)

end

section
variable {inBlock : Bool} {low high peak : Nat} {tokens front back : List Token}
  {trees : List Statement}

theorem completes_noStatements : Completes (.statements inBlock []) [] 0 := by
  intro limit levels item stops found s left rest _ stopping ended left_of all _
  have only : left = [] := by
    obtain rfl | ⟨stop, -, cons⟩ := left_of
    · rfl
    · cases cons
  rw [only, List.nil_append] at all
  have stop : s.tokens = [] ∨ stops s.current.kind = true := by
    obtain rfl | ⟨block, brace⟩ := ended
    · exact .inl all
    · right
      rw [State.current_kind, all, brace, stopping, block]
      rfl
  refine ⟨fun _ => ⟨s, ?_, .refl s, all⟩, fun lt => absurd lt (Nat.not_lt_zero _)⟩
  rw [sequenceFrom_stops stop, List.append_nil]

theorem completes_stray {token : Token} (skipped : token.kind.Stray inBlock)
    (others : Completes (.statements inBlock trees) tokens peak) :
    Completes (.statements inBlock trees) (token :: tokens) peak := by
  intro limit levels item stops found s left rest like stopping ended left_of all base
  obtain rfl | ⟨stop, -, cons⟩ := left_of
  · have current := State.current_of_tokens all
    have proper : s.tokens ≠ [] := by
      rw [all]
      exact List.cons_ne_nil _ _
    have goes : stops s.current.kind = false := by
      rw [stopping, current, Bool.and_eq_false_iff]
      cases inBlock with
      | false => exact .inl rfl
      | true => exact .inr (decide_eq_false (skipped.2 rfl))
    rw [← current] at skipped
    obtain ⟨t, run, quiet, ahead⟩ := run_statement_stray (within limit levels) skipped
    apply Collects.skip proper goes (like.skips run) quiet
    apply others limit levels item stops found t.advance tokens rest like stopping ended (.inl rfl)
    · exact ahead.trans (State.ahead_of_tokens all)
    · rw [State.depth_advance, quiet.depth, base]
  · -- The semicolon in front belonged to a function; the rest is read as before.
    obtain ⟨-, rfl⟩ := List.cons.inj cons
    exact others limit levels item stops found s _ rest like stopping ended (.inl rfl) all base

/-- What follows a statement goes on as the derivation says. -/
theorem follows_statement {tree : Statement} {rest : List Token}
    (complete : tree.openEnded = true → headKind back ≠ .elseWord) (other : headKind rest ≠ .elseWord) :
    tree.openEnded = true → headKind (back ++ rest) ≠ .elseWord := by
  intro open_end
  by_cases proper : back = []
  · subst proper
    exact other
  · rw [headKind_append proper]
    exact complete open_end

/-- Where the statements of a program or a block end, no `else` follows. -/
private theorem headKind_of_ended {rest : List Token}
    (ended : rest = [] ∨ inBlock = true ∧ headKind rest = .rightBrace) : headKind rest ≠ .elseWord := by
  obtain rfl | ⟨-, brace⟩ := ended
  · decide
  · rw [brace]
    decide

/-- No statement begins with a semicolon, so none is missing in front of one. -/
theorem LeftOf.eq_of_begins {left : List Token} (h : LeftOf (front ++ back) left)
    (begins : front ≠ [] ∧ headKind front ∈ beginnings) : left = front ++ back := by
  obtain same | ⟨stop, semicolon, cons⟩ := h
  · exact same
  · have head := begins.2
    rw [← headKind_append begins.1 back, cons, headKind_cons, semicolon] at head
    exact absurd head (by decide)

theorem completes_statements {tree : Statement} (begins : front ≠ [] ∧ headKind front ∈ beginnings)
    (first : Completes (.statement tree) front low)
    (others : Completes (.statements inBlock trees) back high)
    (complete : tree.openEnded = true → headKind back ≠ .elseWord) :
    Completes (.statements inBlock (tree :: trees)) (front ++ back) (max low high) := by
  intro limit levels item stops found s left rest like stopping ended left_of all base
  rw [left_of.eq_of_begins begins, List.append_assoc] at all
  have proper : s.tokens ≠ [] := by
    rw [all]
    exact fun none => begins.1 (List.append_eq_nil_iff.1 none).1
  have goes : stops s.current.kind = false := by
    have head := begins.2
    rw [State.current_kind, all, headKind_append begins.1, stopping, Bool.and_eq_false_iff]
    right
    apply decide_eq_false
    intro brace
    rw [brace] at head
    exact absurd head (by decide)
  have follows := follows_statement complete (headKind_of_ended ended)
  have reads := first limit levels s (back ++ rest) follows all base
  apply Collects.statement proper goes (like.reads reads)
  intro t quiet follows
  have base' : t.depth + levels = limit := by rw [quiet.depth, base]
  obtain same | ⟨stop, semicolon, cons⟩ := follows
  · exact others limit levels item stops _ t back rest like stopping ended (.inl rfl) same base'
  · -- A semicolon that the statement has used up was the first token of the others.
    cases back with
    | nil =>
      obtain rfl | ⟨-, brace⟩ := ended
      · cases cons
      · rw [List.nil_append] at cons
        rw [cons, headKind_cons, semicolon] at brace
        cases brace
    | cons token back =>
      obtain ⟨rfl, same⟩ := List.cons.inj cons
      exact others limit levels item stops _ t back rest like stopping ended
        (.inr ⟨token, semicolon, rfl⟩) same.symm base'

theorem completes_block {opening closing : Token} (opens : opening.kind = .leftBrace)
    (inside : Completes (.statements true trees) tokens peak) (closes : closing.kind = .rightBrace) :
    Completes (.block (.braced opening trees)) (opening :: (tokens ++ [closing])) (peak + 1) := by
  intro limit levels s rest _ ahead base
  rw [List.cons_append, List.append_assoc] at ahead
  apply Reads.expected ahead opens
  cases levels with
  | zero =>
    refine ⟨fun le => by omega, fun _ => ?_⟩
    change State.TooDeep limit s.advance ((Rule.block limit 0).run s.advance).2
    rw [run_block_zero]
    exact State.tooDeep_refused limit _
  | succ levels =>
    have room : s.advance.depth < limit := by
      rw [State.depth_advance]
      omega
    let inner := within limit levels
    let start := s.advance.takeLevel
    have opened : s.advance.current = opening := State.current_of_tokens ahead
    have collects := inside limit levels (statement inner) (· = .rightBrace) [] start.advance tokens
      (closing :: rest) ⟨id, id⟩ (fun _ => rfl) (.inr ⟨rfl, closes⟩) (.inl rfl)
      (State.ahead_of_tokens ahead)
      (by rw [State.depth_advance, State.depth_takeLevel, State.depth_advance]; omega)
    have run := @run_block_of_room limit levels s.advance room
    change Reads limit (levels + 1) (Rule.block limit (levels + 1)) s.advance (peak + 1) _ _
    refine ⟨fun le => ?_, fun lt => ?_⟩
    · obtain ⟨t, collected, quiet, ended⟩ := collects.fits (by omega)
      have same : contents limit levels s.advance = (trees, t) := collected
      have last : (t.returnLevels 1).current = closing := State.current_of_tokens ended
      refine ⟨t.returnLevels 1, ?_, ⟨quiet.finish, ?_, ?_⟩, ?_⟩
      · rw [run, same, opened, run_closed, last, if_pos closes]
      · rw [State.depth_returnLevels, quiet.depth]
        exact Nat.add_sub_cancel _ _
      · exact (State.diagnostics_returnLevels t 1).trans (Eq.trans quiet.silent
          ((State.diagnostics_advance start).trans (State.diagnostics_takeLevel _)))
      · exact State.ahead_of_tokens (s := t) ended
    · rw [run]
      have led : s.advance.Leads start.advance := (State.Leads.takeLevel _).trans (.advance _)
      exact (collects.exceeds (by omega)).extend led
        ((State.Leads.returnLevels _ 1).trans ((closed _).leads _))

end

end LittleScript.Grammar

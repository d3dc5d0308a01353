import LittleScript.Proofs.Rule.Turns
import LittleScript.Proofs.Run.Activation
import LittleScript.Proofs.Run.Cut
import LittleScript.Proofs.Token.Lexical

/-!
The way of a run through the tokens. Each of them becomes the current one once, in order, whatever can be read;
so a run comes to the end of every text.
-/

namespace LittleScript

def Event.moved? : Event → Option Token
  | .moved token => some token
  | _ => none

namespace Journal

def moves (journal : Journal) : List Token := journal.events.filterMap Event.moved?

theorem moves_record (journal : Journal) (event : Event) :
    (journal.record event).moves = journal.moves ++ event.moved?.toList := by
  cases h : event.moved? <;> simp [moves, h]

end Journal

def properTokens (tokens : List Token) : List Token :=
  tokens.filter fun token => token.kind ≠ .endOfInput

theorem properTokens_eq_self {tokens : List Token} (proper : ∀ token ∈ tokens, token.kind ≠ .endOfInput) :
    properTokens tokens = tokens :=
  List.filter_eq_self.2 fun token mem => decide_eq_true (proper token mem)

private theorem properTokens_append (front back : List Token) :
    properTokens (front ++ back) = properTokens front ++ properTokens back := List.filter_append _ _

/-- An end mark is left out. -/
private theorem properTokens_mark {token : Token} (mark : token.kind = .endOfInput) (rest : List Token) :
    properTokens (token :: rest) = properTokens rest := by
  apply List.filter_cons_of_neg
  rw [mark]
  decide

namespace Run

namespace State

private def route (s : State) : List Token := properTokens (s.journal.moves ++ s.ahead)

/-- Only moving on is seen on the way. -/
private theorem route_eq {s t : State} {event : Event} (still : event.moved? = none) (tokens : t.tokens = s.tokens)
    (journal : t.journal = s.journal.record event) : t.route = s.route := by
  rw [route, route, journal, Journal.moves_record, still, ahead, ahead, tokens, Option.toList,
    List.append_nil]

private theorem route_record (s : State) {event : Event} (still : event.moved? = none) :
    (s.record event).route = s.route := route_eq still rfl rfl

private theorem route_takeLevel (s : State) : s.takeLevel.route = s.route :=
  @route_eq s s.takeLevel .levelTaken rfl rfl rfl

private theorem route_returnLevels (s : State) (count : Nat) : (s.returnLevels count).route = s.route :=
  @route_eq s (s.returnLevels count) (.levelsReturned count) rfl rfl rfl

/-- The token that was ahead becomes the current one. Behind the last that is the end mark. -/
private theorem route_advance (s : State) : s.advance.route = s.route := by
  have moves : s.advance.journal.moves = s.journal.moves ++ [s.peek] :=
    Journal.moves_record s.journal (.moved s.peek)
  rw [route, route, moves, List.append_assoc]
  cases left : s.ahead with
  | nil =>
    have ended : s.advance.ahead = [] := by rw [ahead, ahead_advance_tokens, left, List.tail_nil]
    rw [ended, List.singleton_append, properTokens_append, properTokens_append,
      properTokens_mark (peek_kind_of_ended left)]
  | cons token rest => rw [peek_of_ahead left, ahead_advance left, List.singleton_append]

private theorem Ends.route {u v : State} {token : Token} {built : Bool} (h : u.Ends token built v) :
    v.route = u.route := by
  obtain rfl | ⟨tree, -, rfl⟩ := h
  · exact route_record _ rfl
  · exact (route_record _ rfl).trans (route_record _ rfl)

end State

/-- In every course of a run the tokens become the current one as they stand. -/
private theorem Course.route {limit : Nat} {s t : State} {part : Part} (h : Course limit s part t) :
    t.route = s.route := by
  induction h with
  | start => rfl
  | advance _ ih => exact (State.route_advance _).trans ih
  | expression _ _ ih => exact (State.route_record _ rfl).trans ih
  | takeLevel _ _ ih => exact (State.route_takeLevel _).trans ih
  | returnLevels count _ ih => exact (State.route_returnLevels _ count).trans ih
  | report _ _ ih => exact (State.route_record _ rfl).trans ih
  | @block s t u _ _ _ _ _ _ before inside =>
    have entry := t.takeLevel.route_advance.trans t.route_takeLevel
    exact (u.route_returnLevels 1).trans (inside.trans (entry.trans before))
  | @unterminated s t u _ _ _ _ _ _ before inside =>
    have entry := t.takeLevel.route_advance.trans t.route_takeLevel
    have ended (d : Diagnostic) : ((u.returnLevels 1).record (.diagnosed d)).route = u.route :=
      ((u.returnLevels 1).route_record rfl).trans (u.route_returnLevels 1)
    exact (ended _).trans (inside.trans (entry.trans before))
  | none => rfl
  | @statement s t u v _ _ _ _ _ ended before inside =>
    have entry : t.begun.route = s.route := (t.route_record rfl).trans before
    exact v.route_advance.trans (ended.route.trans (inside.trans entry))
  | @skipped s t v _ _ _ ended before =>
    have entry : t.begun.route = s.route := (t.route_record rfl).trans before
    exact v.route_advance.trans (ended.route.trans entry)

namespace State
variable {limit : Nat} {s : State}

/-- A run from a first token on makes all tokens the current one, in order. -/
theorem visits_finishProgram (first : s.journal.moves = []) :
    properTokens (s.current :: (s.finishProgram limit).2.journal.moves) = properTokens s.tokens := by
  obtain ⟨course, ended⟩ := s.course_finishProgram limit
  have way : properTokens (s.finishProgram limit).2.journal.moves = properTokens s.ahead := by
    have route := course.route
    rwa [State.route, State.route, first, ahead_of_tokens_nil ended, List.append_nil,
      List.nil_append] at route
  rw [← List.singleton_append, properTokens_append, way, ← properTokens_append, List.singleton_append]
  by_cases empty : s.tokens = []
  · have mark : s.current.kind = .endOfInput := by
      rw [current_kind, empty]
      rfl
    rw [properTokens_mark mark, ahead_of_tokens_nil empty, empty]
  · rw [← tokens_of_proper empty]

end State
end Run

open Run

/-- Parsing ends, and it visits every token once. The rules are the only ones that solve their recursion, for
what stands inside of something is read with fewer tokens to go and one more level open; and every turn of a loop
moves past a token. In the run over a text all tokens become the current one, in order, statements start on
different ones, and the end mark is the last to be seen. -/
theorem parsing_ends_and_visits_once (limit : Nat) :
    (∀ rules : Inner, rules = Rule.around limit rules ↔ rules = Rule.within limit limit) ∧
    (∀ (rules : Inner) (s : State),
      (∀ t : State, t.tokens.length < s.tokens.length → s.depth < t.depth →
        rules.SameAt (Rule.within limit limit) t) →
      (Rule.around limit rules).SameAt (Rule.within limit limit) s) ∧
    (∀ (rules : Inner) (s : State),
      (∀ t : State, t.tokens.length < s.tokens.length → rules.SameAt (Rule.within limit limit) t) →
      (Rule.statement rules).run s = (Rule.statement (Rule.within limit limit)).run s) ∧
    (∀ (inner : Inner) (loop : Loop),
      (WellFounded fun t s => Turn limit inner loop s t) ∧
      ∀ s u, loop.ComesTo limit inner s u →
        ∃ t, Relation.ReflTransGen (Turn limit inner loop) s t ∧ (u = t ∨ u = Rule.refused limit t)) ∧
    ∀ text : String,
      let start := State.start (.ofText text) .empty
      let last := (start.finishProgram limit).2
      (∀ (inner : Inner) (loop : Loop) (s t : State), start.Leads s → Turn limit inner loop s t →
        s.MovesOn t) ∧
      properTokens (start.current :: last.journal.moves) = (TokenStream.ofText text).tokens ∧
      last.journal.begun.Sublist (TokenStream.ofText text).tokens ∧ last.journal.begun.Nodup ∧
      last.current.kind = .endOfInput ∧ last.peek.kind = .endOfInput := by
  refine ⟨fun rules => Rule.eq_around_iff, fun rules s => Rule.sameAt_around,
    fun rules s => Rule.run_statement_eq, ?_, ?_⟩
  · exact fun inner loop => ⟨Turn.wellFounded limit inner loop, fun s u => Loop.ComesTo.turns⟩
  · intro text start last
    have proper := TokenStream.kind_ne_endOfInput text
    obtain ⟨course, ended⟩ := start.course_finishProgram limit
    obtain ⟨started, begun, used⟩ := course.begun
    have among : last.journal.begun.Sublist (TokenStream.ofText text).tokens := by
      have same : last.journal.begun = started := begun
      rw [same]
      exact (List.sublist_append_left started _).trans used
    refine ⟨?_, ?_, among, (TokenStream.nodup_tokens text).sublist among, ?_, ?_⟩
    · intro inner loop s t led turn
      obtain ⟨goes, fewer⟩ := turn.shorter
      exact State.movesOn_of_leads (fun token mem => proper token (led.tokens.subset mem)) goes fewer
    · exact (State.visits_finishProgram rfl).trans (properTokens_eq_self proper)
    · rw [State.current_kind, ended]
      rfl
    · exact State.peek_kind_of_ended (State.ahead_of_tokens_nil ended)

def openEnd : State := State.start (.ofText "a = b + (") .empty

/-- The missing operand is looked for at the end mark. One more move is made behind that, but no token is seen
twice. -/
theorem parsing_ends_and_visits_once_open :
    (Rule.around 4 (Rule.within 4 3)).SameAt (Rule.within 4 4) openEnd ∧
    (Rule.statement (Rule.around 4 (Rule.within 4 4))).run openEnd =
      (Rule.statement (Rule.within 4 4)).run openEnd ∧
    (∃ t, Relation.ReflTransGen (Turn 4 (Rule.within 4 4) .program) openEnd t ∧
      ((openEnd.finishProgram 4).2 = t ∨ (openEnd.finishProgram 4).2 = Rule.refused 4 t)) ∧
    openEnd.tokens ≠ [] ∧ openEnd.MovesOn (openEnd.turn 4) ∧
    (openEnd.finishProgram 4).2.journal.moves.map Token.kind =
      [.assign, .identifier, .plus, .leftParen, .endOfInput, .endOfInput] ∧
    (properTokens (openEnd.current :: (openEnd.finishProgram 4).2.journal.moves)).map Token.kind =
      [.identifier, .assign, .identifier, .plus, .leftParen] := by
  obtain ⟨-, around, statement, loops, runs⟩ := parsing_ends_and_visits_once 4
  obtain ⟨turns, visits, -⟩ := runs "a = b + ("
  have proper : openEnd.tokens ≠ [] := by decide +kernel
  refine ⟨?_, ?_, (loops (Rule.within 4 4) .program).2 _ _ .program, proper, ?_, by decide +kernel, ?_⟩
  · apply around
    intro t _ deeper
    exact Rule.sameAt_of_enough (by omega)
  · apply statement
    intro t _
    exact around (Rule.within 4 4) t fun u _ _ => ⟨fun _ => rfl, rfl⟩
  · exact turns (Rule.within 4 4) .program _ _ (.refl _) (.program proper)
  · have tokens := congrArg (List.map Token.kind) visits
    exact tokens.trans (by decide +kernel)

end LittleScript

import LittleScript.Proofs.Run.Course

/-!
The levels that are open at each moment of a run. The journal tells when levels are opened and closed, so that
the counter can be followed from one entry to the next, also inside of a rule.
-/

namespace LittleScript

def Event.levels : Event → Int
  | .levelTaken => 1
  | .levelsReturned count => -count
  | .statementBegun _ _ | .statementEnded _ _ | .expressionBegun _ _ | .diagnosed _ | .kept _ | .moved _ => 0

def Journal.levels (journal : Journal) : Int :=
  journal.latestFirst.foldr (fun event levels => event.levels + levels) 0

private theorem Journal.levels_record (journal : Journal) (event : Event) :
    (journal.record event).levels = event.levels + journal.levels := rfl

namespace Run

structure State.Moment (s t : State) (moment : Journal) : Prop where
  begun : s.journal.latestFirst <:+ moment.latestFirst
  ended : moment.latestFirst <:+ t.journal.latestFirst

/-- The counter of levels at a moment of a run from `s` on. It would be negative if more levels were closed
than are open. -/
def State.levelsAt (s : State) (moment : Journal) : Int := s.depth + (moment.levels - s.journal.levels)

/-- From `s` to `t` there are never fewer levels open than none and never more than the limit. In the end the
counter tells how many there are. -/
structure State.LevelsKept (limit : Nat) (s t : State) : Prop where
  journal : s.journal.latestFirst <:+ t.journal.latestFirst
  counted : (t.depth : Int) = s.levelsAt t.journal
  bounded : ∀ moment, s.Moment t moment → 0 ≤ s.levelsAt moment ∧ s.levelsAt moment ≤ limit

namespace State.LevelsKept
variable {limit : Nat} {s t u : State}

/-- One entry more, which changes the counter as it says. -/
private theorem entry {event : Event} (journal : t.journal = s.journal.record event)
    (depth : (t.depth : Int) = s.depth + event.levels) (first : s.depth ≤ limit) (second : t.depth ≤ limit) :
    s.LevelsKept limit t := by
  have now : s.levelsAt t.journal = t.depth := by
    rw [levelsAt, journal, Journal.levels_record, depth]
    omega
  have before : s.levelsAt s.journal = s.depth := by
    rw [levelsAt]
    omega
  have added : s.journal.latestFirst <:+ t.journal.latestFirst := by
    rw [journal]
    exact List.suffix_cons event s.journal.latestFirst
  refine ⟨added, now.symm, fun moment between => ?_⟩
  have late : moment.latestFirst <:+ event :: s.journal.latestFirst := by
    have ended := between.ended
    rwa [journal] at ended
  obtain same | early := List.suffix_cons_iff.1 late
  · have whole : moment = t.journal := by
      rw [journal]
      exact congrArg Journal.mk same
    rw [whole, now]
    omega
  · have none : moment = s.journal := congrArg Journal.mk (early.eq_of_length_le between.begun.length_le)
    rw [none, before]
    omega

theorem refl (room : s.depth ≤ limit) : s.LevelsKept limit s := by
  have now : s.levelsAt s.journal = s.depth := by
    rw [levelsAt]
    omega
  refine ⟨List.suffix_rfl, now.symm, fun moment between => ?_⟩
  have same : moment = s.journal :=
    congrArg Journal.mk (between.ended.eq_of_length_le between.begun.length_le)
  rw [same, now]
  omega

theorem trans (a : s.LevelsKept limit t) (b : t.LevelsKept limit u) : s.LevelsKept limit u := by
  have shift (moment : Journal) : t.levelsAt moment = s.levelsAt moment := by
    have counted := a.counted
    simp only [levelsAt] at counted ⊢
    omega
  refine ⟨a.journal.trans b.journal, b.counted.trans (shift u.journal), fun moment between => ?_⟩
  -- the moment is one of the first part or one of the second
  obtain early | late := List.suffix_or_suffix_of_suffix between.ended b.journal
  · exact a.bounded moment ⟨between.begun, early⟩
  · rw [← shift]
    exact b.bounded moment ⟨late, between.ended⟩

/-- In the end there are not too many levels open either. -/
theorem le (h : s.LevelsKept limit t) : t.depth ≤ limit := by
  have bound := (h.bounded t.journal ⟨h.journal, List.suffix_rfl⟩).2
  rw [← h.counted] at bound
  omega

theorem record (room : s.depth ≤ limit) {event : Event} (still : event.levels = 0) :
    s.LevelsKept limit (s.record event) :=
  entry rfl (by rw [still]; exact (Int.add_zero _).symm) room room

theorem advance (room : s.depth ≤ limit) : s.LevelsKept limit s.advance :=
  entry rfl (Int.add_zero _).symm room room

theorem takeLevel (room : s.depth < limit) : s.LevelsKept limit s.takeLevel :=
  entry rfl rfl (Nat.le_of_lt room) room

/-- Only open levels can be closed. -/
private theorem returnLevels {count : Nat} (room : s.depth ≤ limit) (enough : count ≤ s.depth) :
    s.LevelsKept limit (s.returnLevels count) := by
  have after := depth_returnLevels s count
  have journal : (s.returnLevels count).journal = s.journal.record (.levelsReturned count) := rfl
  refine entry journal ?_ room (by omega)
  rw [after, Event.levels]
  omega

/-- What is read one level further in, with that level opened before and closed behind it. -/
theorem nested (room : s.depth < limit) (inside : s.takeLevel.advance.LevelsKept limit t)
    (depth : t.depth = s.takeLevel.advance.depth) : s.LevelsKept limit (t.returnLevels 1) := by
  have opened : t.depth = s.depth + 1 := depth
  have before := (takeLevel room).trans (advance (s := s.takeLevel) room)
  exact (before.trans inside).trans (returnLevels inside.le (by omega))

end State.LevelsKept

private theorem State.Ends.levelsKept {limit : Nat} {u v : State} {token : Token} {built : Bool}
    (h : u.Ends token built v) (room : u.depth ≤ limit) : u.LevelsKept limit v := by
  obtain rfl | ⟨tree, -, rfl⟩ := h
  · exact .record room rfl
  · have ended : u.LevelsKept limit (u.record (.statementEnded token built)) := .record room rfl
    exact ended.trans (.record ended.le rfl)

/-- In every course of a run the levels are kept. -/
theorem Course.levelsKept {limit : Nat} {s t : State} {part : Part} (h : Course limit s part t)
    (room : s.depth ≤ limit) : s.LevelsKept limit t := by
  induction h with
  | start => exact .refl room
  | advance _ ih => exact (ih room).trans (.advance (ih room).le)
  | expression _ _ ih => exact (ih room).trans (.record (ih room).le rfl)
  | takeLevel _ free ih => exact (ih room).trans (.takeLevel free)
  | returnLevels count before ih =>
    have open' := before.depth
    simp only [Part.levels] at open'
    exact (ih room).trans (.returnLevels (ih room).le (by omega))
  | report _ _ ih => exact (ih room).trans (.record (ih room).le rfl)
  | block before _ free inside _ ih ihInside =>
    exact (ih room).trans (.nested free (ihInside free) inside.depth)
  | unterminated before _ free inside _ ih ihInside =>
    have block := (ih room).trans (.nested free (ihInside free) inside.depth)
    exact block.trans (.record block.le rfl)
  | none => exact .refl room
  | @statement s t u v refused before _ _ inside ended ih ihInside =>
    have begun : t.LevelsKept limit t.begun := .record (ih room).le rfl
    have read := ((ih room).trans begun).trans (ihInside begun.le)
    have whole := read.trans (ended.levelsKept read.le)
    exact whole.trans (.advance whole.le)
  | @skipped s t v before _ _ ended ih =>
    have begun : t.LevelsKept limit t.begun := .record (ih room).le rfl
    have whole := ((ih room).trans begun).trans (ended.levelsKept begun.le)
    exact whole.trans (.advance whole.le)

end Run
end LittleScript

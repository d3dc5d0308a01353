import LittleScript.Proofs.Rule.Reading
import LittleScript.Proofs.Run.Beside

/-!
Rules in two runs beside each other. Rules that are put together stay abreast if their parts do, as long
as each part but the last ends in front of the semicolon.
-/

namespace LittleScript.Rule

open Run

/-- From `s` and `t`, both rules come to states beside each other, and the second one builds what the
first one builds, moved. If something is built, the first run ends in a `good` state. -/
structure Abreast (c : Surroundings) {α : Type} (move : α → α) (a b : Rule α) (good : State → Prop)
    (s t : State) : Prop where
  value : (b.run t).1 = (a.run s).1.map move
  beside : (a.run s).2.Beside c (b.run t).2
  good : (a.run s).1.isSome = true → good (a.run s).2

namespace Abreast
variable {c : Surroundings} {α β : Type} {move : α → α} {move' : β → β} {a b : Rule α} {f g : α → Rule β}
  {mid good : State → Prop} {s t u v : State}

theorem of_run_eq {a' b' : Rule α} (h : Abreast c move a' b' good u v) (first : a.run s = a'.run u)
    (second : b.run t = b'.run v) : Abreast c move a b good s t := by
  refine ⟨?_, ?_, ?_⟩
  · rw [first, second, h.value]
  · rw [first, second]
    exact h.beside
  · rw [first]
    exact h.good

theorem weaken (h : Abreast c move a b good s t) : Abreast c move a b State.Anywhere s t :=
  ⟨h.value, h.beside, fun _ => trivial⟩

protected theorem pure {x y : α} (h : s.Beside c t) (same : y = move x) (fine : good s) :
    Abreast c move (pure x) (pure y) good s t :=
  ⟨congrArg some same, h, fun _ => fine⟩

protected theorem skip (h : s.Beside c t) : Abreast c move skip skip good s t :=
  ⟨rfl, h, fun built => by cases built⟩

protected theorem refuse (h : s.Beside c t) (cause : Cause) (location : Location) :
    Abreast c move (refuse cause location) (refuse (cause.relocate c.move) (c.move location)) good s t :=
  ⟨rfl, h.diagnosed ⟨cause, location⟩, fun built => by cases built⟩

protected theorem refuseLevel (limit : Nat) (h : s.Beside c t) :
    Abreast c move (refuseLevel limit) (refuseLevel limit) good s t := by
  refine .of_run_eq (.refuse h (.nestingTooDeep limit) s.current.location) rfl ?_
  rw [run_refuseLevel, h.current]
  rfl

/-- If the first part builds nothing, neither does the whole. -/
private theorem bind_none (first : Abreast c move a b mid s t) (nothing : (a.run s).1 = none) :
    Abreast c move' (a >>= f) (b >>= g) good s t := by
  have run : a.run s = (none, (a.run s).2) := Prod.ext nothing rfl
  have run' : b.run t = (none, (b.run t).2) := Prod.ext (by rw [first.value, nothing]; rfl) rfl
  have whole : (a >>= f).run s = (none, (a.run s).2) := by rw [run_bind, run, next_none]
  have whole' : (b >>= g).run t = (none, (b.run t).2) := by rw [run_bind, run', next_none]
  refine ⟨?_, ?_, ?_⟩
  · rw [whole, whole']
    rfl
  · rw [whole, whole']
    exact first.beside
  · rw [whole]
    exact fun built => by cases built

private theorem bind_some {x : α} (first : Abreast c move a b mid s t) (built : a.run s = (some x, u))
    (second : ∀ t', u.Beside c t' → mid u → Abreast c move' (f x) (g (move x)) good u t') :
    Abreast c move' (a >>= f) (b >>= g) good s t := by
  have run' : b.run t = (some (move x), (b.run t).2) := Prod.ext (by rw [first.value, built]; rfl) rfl
  have beside := first.beside
  have reached := first.good
  rw [built] at beside reached
  apply (second (b.run t).2 beside (reached rfl)).of_run_eq
  · rw [run_bind, built, next_some]
  · rw [run_bind, run', next_some]

protected theorem bind (first : Abreast c move a b mid s t)
    (second : ∀ x s' t', s'.Beside c t' → mid s' → Abreast c move' (f x) (g (move x)) good s' t') :
    Abreast c move' (a >>= f) (b >>= g) good s t := by
  cases value : (a.run s).1 with
  | none => exact first.bind_none value
  | some x => exact first.bind_some (Prod.ext value rfl) (second x (a.run s).2)

section
variable {f g : Token → Rule β}

theorem current (h : s.Beside c t)
    (second : Abreast c move' (f s.current) (g (s.current.relocate c.move)) good s t) :
    Abreast c move' (Rule.current >>= f) (Rule.current >>= g) good s t := by
  refine second.of_run_eq rfl ?_
  rw [run_bind, run_current, next_some, h.current]

theorem peek (h : s.Beside c t) (inside : s.Inside)
    (second : Abreast c move' (f s.peek) (g (s.peek.relocate c.move)) good s t) :
    Abreast c move' (Rule.peek >>= f) (Rule.peek >>= g) good s t := by
  refine second.of_run_eq rfl ?_
  rw [run_bind, run_peek, next_some, h.peek inside]

/-- A token that is expected becomes the current one in both runs. -/
theorem expected {kind : Kind} (h : s.Beside c t) (inside : s.Inside)
    (second : s.peek.kind = kind → s.advance.Beside c t.advance →
      Abreast c move' (f s.peek) (g (s.peek.relocate c.move)) good s.advance t.advance) :
    Abreast c move' (expect kind >>= f) (expect kind >>= g) good s t := by
  have same := h.peek inside
  have sameKind := h.peek_kind inside
  by_cases there : s.peek.kind = kind
  · apply (second there (h.advance inside)).of_run_eq
    · rw [run_bind, run_expect, if_pos there, next_some]
    · rw [run_bind, run_expect, if_pos (sameKind.trans there), next_some, same]
  · apply (Abreast.refuse h (.unexpected kind s.peek.kind) s.peek.location).of_run_eq
    · rw [run_bind, run_expect, if_neg there, next_none, run_refuse]
    · rw [run_bind, run_expect, if_neg (sameKind ▸ there), next_none, run_refuse, same]
      rfl

end

theorem advance {f g : Unit → Rule β} (h : s.Beside c t) (inside : s.Inside)
    (second : s.advance.Beside c t.advance → Abreast c move' (f ()) (g ()) good s.advance t.advance) :
    Abreast c move' (Rule.advance >>= f) (Rule.advance >>= g) good s t :=
  (second (h.advance inside)).of_run_eq rfl rfl

/-- An item that starts in front of the semicolon and ends there if it is built. -/
def Item (c : Surroundings) (move : α → α) (item : Rule α) : Prop :=
  ∀ s t, s.Beside c t → s.Inside → Abreast c move item item State.Inside s t

private theorem items {item : Rule α} (each : Item c move item) (found : List α) (h : s.Beside c t)
    (inside : s.Inside) :
    Abreast c (List.map move) (items item found) (items item (found.map move)) State.Inside s t := by
  fun_induction itemsFrom item found s generalizing t with
  | case1 found s comma u failed =>
    have comma' : t.peek.kind = .comma := (h.peek_kind inside).trans comma
    refine .of_run_eq ?_ (run_items_comma comma) (run_items_comma comma')
    apply advance h inside
    intro moved
    apply (each _ _ moved (State.inside_of_kind comma (by decide))).bind_none
    rw [failed]
  | case2 found s comma x u built ih =>
    have comma' : t.peek.kind = .comma := (h.peek_kind inside).trans comma
    refine .of_run_eq ?_ (run_items_comma comma) (run_items_comma comma')
    apply advance h inside
    intro moved
    apply (each _ _ moved (State.inside_of_kind comma (by decide))).bind_some built
    intro t' beside inside'
    exact ih beside inside'
  | case3 found s other =>
    have other' : t.peek.kind ≠ .comma := h.peek_kind inside ▸ other
    refine .of_run_eq (.pure h ?_ inside) (run_items_done other) (run_items_done other')
    rw [List.map_reverse]

theorem listed {item : Rule α} (each : Item c move item) : Item c (List.map move) (listed item) := by
  intro s t h inside
  apply peek h inside
  rw [Token.kind_relocate]
  split
  · rename_i closes
    apply advance h inside
    intro moved
    exact .pure moved rfl (State.inside_of_kind closes (by decide))
  · apply (each s t h inside).bind
    intro first s t h inside
    apply (items each [first] h inside).bind
    intro all s t h inside
    apply expected h inside
    intro closes moved
    exact .pure moved rfl (State.inside_of_kind closes (by decide))

/-- Where nothing more is behind, sequences stay abreast to their end. What the second run has found
earlier stays in front. -/
theorem sequenceFrom {item : Rule α}
    (each : ∀ s t, s.Beside c t → Abreast c move item item State.Anywhere s t) (nothing : c.behind = none)
    (stops : Kind → Bool) (found earlier : List α) (h : s.Beside c t) :
    (sequenceFrom item stops (found.map move ++ earlier) t).1 =
        earlier.reverse ++ (sequenceFrom item stops found s).1.map move ∧
      (sequenceFrom item stops found s).2.Beside c
        (sequenceFrom item stops (found.map move ++ earlier) t).2 := by
  have ended_iff : ∀ {s t : State}, s.Beside c t → (t.tokens = [] ↔ s.tokens = []) := by
    intro s t h
    rw [h.tokens, nothing, Option.getD_none, List.append_nil, List.map_eq_nil_iff]
  fun_induction Rule.sequenceFrom item stops found s generalizing t with
  | case1 found s ended =>
    rw [sequenceFrom_stops (.inl ((ended_iff h).2 ended)), List.reverse_append, List.map_reverse]
    exact ⟨rfl, h⟩
  | case2 found s proper stopped =>
    rw [sequenceFrom_stops (.inr (by rw [h.current_kind, stopped])), List.reverse_append, List.map_reverse]
    exact ⟨rfl, h⟩
  | case3 found s proper goes ih =>
    have goes' : stops t.current.kind = false := by
      rw [h.current_kind]
      exact Bool.eq_false_iff.2 goes
    have read := each s t h
    rw [sequenceFrom_step (mt (ended_iff h).1 proper) goes', read.value, ← List.append_assoc,
      Option.toList_map, ← List.map_append]
    exact ih (read.beside.advance_of_closed fun more => absurd nothing more)

end Abreast
end LittleScript.Rule

import LittleScript.Proofs.Rule.Yielding
import LittleScript.Proofs.Run.Stretch

/-!
What rules keep of the tokens that they pass. Whatever is built lists its tokens in the order of the text,
in front of all tokens that are still ahead, also when other tokens between them were lost.
-/

namespace LittleScript

open Run

/-- A later state has no other tokens ahead. -/
private theorem Run.State.Leads.ahead {s t : State} (h : s.Leads t) : t.ahead.Sublist s.ahead :=
  h.tokens.sublist.tail

namespace Rule

/-- Whatever the rule builds lists the tokens in `front` and others from behind the current one, in their
order, and stops where it lists no token that is still ahead. -/
def Keeps {α : Type} (front : List Token) (rule : Rule α) (view : α → List Token) : Prop :=
  ∀ s, Yields rule s fun a t => (view a ++ t.ahead).Sublist (front ++ s.ahead)

def KeepsOn {α : Type} (token : Token) (rule : Rule α) (view : α → List Token) : Prop :=
  ∀ s, s.current = token → Yields rule s fun a t => (view a ++ t.ahead).Sublist (token :: s.ahead)

namespace Keeps
variable {α β : Type} {front mid : List Token} {rule : Rule α} {follow : α → Rule β} {view : α → List Token}
  {goal : β → List Token}

protected theorem pure {a : α} (h : (view a).Sublist front) : Keeps front (pure a) view :=
  fun _ => .pure (h.append_right _)

protected theorem skip : Keeps front (Rule.skip : Rule α) view := fun _ => .of_none rfl

protected theorem refuse (cause : Cause) (location : Location) :
    Keeps front (Rule.refuse cause location : Rule α) view := fun _ => .of_none rfl

protected theorem bind (first : Keeps front rule view) (second : ∀ a, Keeps (view a) (follow a) goal) :
    Keeps front (rule >>= follow) goal :=
  fun s => (first s).bind fun a t kept => (second a t).weaken fun _ _ kept' => kept'.trans kept

/-- Tokens that were listed before stand in front of those that the rule lists. -/
theorem behind (h : Keeps [] rule view) (front : List Token) : Keeps front rule fun a => front ++ view a := by
  refine fun s => (h s).weaken fun a t kept => ?_
  rw [List.append_assoc]
  exact kept.append_left front

/-- Tokens may be left out. -/
theorem weaken (h : Keeps mid rule view) (fewer : mid.Sublist front) : Keeps front rule view :=
  fun s => (h s).weaken fun _ _ kept => kept.trans (fewer.append_right _)

/-- Whatever a rule passes may be left out. -/
theorem past (front : List Token) (rule : Rule α) : Keeps front rule fun _ => front :=
  fun s => (Yields.leads rule s).weaken fun _ _ led => led.ahead.append_left front

/-- What follows starts on the token behind the current one. -/
theorem advance {follow : Unit → Rule β}
    (second : ∀ s, Yields (follow ()) s fun b t => (goal b ++ t.ahead).Sublist (front ++ s.tokens)) :
    Keeps front (Rule.advance >>= follow) goal := fun s => second s.advance

/-- A token that was expected can be listed. -/
protected theorem expect {kind : Kind} (proper : kind ≠ .endOfInput) :
    Keeps [] (Rule.expect kind) fun token => [token] := by
  intro s token t run
  rw [run_expect] at run
  split at run
  · rename_i same
    obtain ⟨rfl, rfl⟩ : s.peek = token ∧ s.advance = t := by simpa using run
    have seen : s.ahead = s.peek :: s.advance.ahead := State.ahead_of_peek (by rw [same]; exact proper)
    rw [List.nil_append, seen]
    exact .refl _
  · cases run

/-- What follows a token that was expected may start on it. -/
theorem expected {kind : Kind} (proper : kind ≠ .endOfInput) {follow : Token → Rule β}
    (second : ∀ token, token.kind = kind → KeepsOn token (follow token) goal) :
    Keeps [] (Rule.expect kind >>= follow) goal := by
  intro s b u run
  rw [run_bind, run_expect] at run
  split at run
  · rename_i same
    have seen : s.ahead = s.peek :: s.advance.ahead := State.ahead_of_peek (by rw [same]; exact proper)
    rw [List.nil_append, seen]
    exact second s.peek same s.advance rfl b u run
  · cases run

section
variable {item : Rule α} {found : List α}

/-- Items behind those already found. -/
protected theorem items (each : Keeps [] item view) :
    Keeps (found.reverse.flatMap view) (items item found) (List.flatMap view) := by
  intro s all u run
  change itemsFrom item found s = _ at run
  fun_induction itemsFrom item found s with
  | case1 => cases run
  | case2 found s comma a t built ih =>
    have one : (view a ++ t.ahead).Sublist s.ahead :=
      (each s.advance a t built).trans (State.Leads.advance s).ahead
    refine (ih run).trans ?_
    rw [List.reverse_cons, List.flatMap_append, List.flatMap_singleton, List.append_assoc]
    exact one.append_left _
  | case3 found s other =>
    obtain ⟨rfl, rfl⟩ : found.reverse = all ∧ s = u := by simpa using run
    exact .refl _

protected theorem listed (each : Keeps [] item view) : Keeps [] (listed item) (List.flatMap view) := by
  refine (past [] peek).bind fun token => ?_
  split
  · exact (past [] Rule.advance).bind fun _ => .pure (.refl _)
  · refine each.bind fun first => ?_
    have one : [first].reverse.flatMap view = view first := List.flatMap_singleton view first
    have others : Keeps (view first) (items item [first]) (List.flatMap view) := one ▸ each.items
    exact others.bind fun all => (past _ _).bind fun _ => .pure (.refl _)

/-- The items of a sequence list their tokens one after the other. Where one was lost, nothing is listed. -/
theorem sequenceFrom (each : ∀ s, Yields item s fun a t => (view a ++ t.ahead).Sublist s.tokens)
    (stops : Kind → Bool) (found : List α) (s : State) :
    ((sequenceFrom item stops found s).1.flatMap view ++ (sequenceFrom item stops found s).2.tokens).Sublist
      (found.reverse.flatMap view ++ s.tokens) := by
  fun_induction Rule.sequenceFrom item stops found s with
  | case1 => exact .refl _
  | case2 => exact .refl _
  | case3 found s proper goes ih =>
    refine ih.trans ?_
    cases run : item.run s with
    | mk value t =>
      cases value with
      | none =>
        have led : t.ahead.Sublist s.tokens := (List.tail_sublist _).trans (leads_of_run run).tokens.sublist
        exact led.append_left _
      | some a =>
        have kept := each s a t run
        rw [Option.toList_some, List.singleton_append, List.reverse_cons, List.flatMap_append,
          List.flatMap_singleton, List.append_assoc]
        exact kept.append_left _

end
end Keeps

namespace KeepsOn
variable {α β : Type} {token : Token} {rule : Rule α} {view : α → List Token} {goal : β → List Token}

theorem of_keeps (h : Keeps [token] rule view) : KeepsOn token rule view := fun s _ => h s

theorem current {follow : Token → Rule β} (h : Keeps [token] (follow token) goal) :
    KeepsOn token (Rule.current >>= follow) goal := by
  intro s same b t run
  rw [run_bind, run_current, next_some, same] at run
  exact h s b t run

/-- On a token proper, the list is one of the tokens that are left. -/
theorem yields {s : State} (h : KeepsOn s.current rule view) (proper : s.current.kind ≠ .endOfInput) :
    Yields rule s fun a t => (view a ++ t.ahead).Sublist s.tokens := by
  rw [State.tokens_of_current proper]
  exact h s rfl

end KeepsOn
end Rule
end LittleScript

import LittleScript.Proofs.Rule.Reading
import LittleScript.Proofs.Run.Braces

/-!
Rules that close the blocks that they open. As long as no brace is passed over, what a rule has used up does
not move the closing brace of a block around it.
-/

namespace LittleScript.Rule

open Run

/-- From `s`, the rule passes over a brace, or the blocks around are closed in the tokens `front` where
they are closed in what the rule leaves ahead. -/
def Balanced {α : Type} (rule : Rule α) (front : List Token) (s : State) : Prop :=
  s.LosesBrace (rule.run s).2 ∨
    ∀ inner, fromClosing inner front = fromClosing inner (rule.run s).2.ahead

namespace Balanced
variable {α β : Type} {rule : Rule α} {follow : α → Rule β} {front : List Token} {s t : State}

/-- The rule goes on like another one from a later state. -/
theorem step {other : Rule α} (h : Balanced other front t) (run : rule.run s = other.run t)
    (led : s.Leads t) : Balanced rule front s := by
  rw [Balanced, run]
  rcases h with loses | same
  · exact .inl (loses.extend led (.refl _))
  · exact .inr same

/-- A rule that uses no token. -/
theorem still (h : (rule.run s).2.tokens = s.tokens) : Balanced rule s.ahead s :=
  .inr fun inner => by rw [State.ahead, State.ahead, h]

private theorem bind_run (first : Balanced rule front s)
    (second : ∀ a t, rule.run s = (some a, t) → Balanced (follow a) t.ahead t) :
    Balanced (rule >>= follow) front s := by
  have led := rule.leads s
  rw [Balanced] at first
  rw [Balanced, run_bind]
  cases run : rule.run s with
  | mk built t =>
    rw [run] at first led
    cases built with
    | none => exact first
    | some a =>
      rw [next_some]
      rcases first with loses | same
      · exact .inl (loses.extend (.refl s) ((follow a).leads t))
      · rcases second a t run with loses | same'
        · exact .inl (loses.extend led (.refl _))
        · exact .inr fun inner => (same inner).trans (same' inner)

protected theorem bind (first : Balanced rule front s) (second : ∀ a t, Balanced (follow a) t.ahead t) :
    Balanced (rule >>= follow) front s := first.bind_run fun a t _ => second a t

theorem current {follow : Token → Rule β} (second : Balanced (follow s.current) front s) :
    Balanced (Rule.current >>= follow) front s := second

theorem peek {follow : Token → Rule β} (second : Balanced (follow s.peek) front s) :
    Balanced (Rule.peek >>= follow) front s := second

/-- What follows starts on the next token, which may be a brace. -/
theorem advance {follow : Unit → Rule β} (second : Balanced (follow ()) s.advance.tokens s.advance) :
    Balanced (Rule.advance >>= follow) s.ahead s := second.step rfl (.advance s)

/-- The next token is used up. -/
theorem past {follow : Unit → Rule β} (other : ¬ s.peek.kind.IsBrace)
    (second : Balanced (follow ()) s.advance.ahead s.advance) :
    Balanced (Rule.advance >>= follow) s.ahead s := by
  have same : ∀ inner, fromClosing inner s.ahead = fromClosing inner s.advance.ahead :=
    fun inner => State.fromClosing_tokens (s := s.advance) other inner
  rcases second with loses | rest
  · exact .inl (loses.extend (.advance s) (.refl _))
  · exact .inr fun inner => (same inner).trans (rest inner)

theorem expected {follow : Token → Rule β} {kind : Kind} (other : ¬ kind.IsBrace)
    (second : Balanced (follow s.peek) s.advance.ahead s.advance) :
    Balanced (expect kind >>= follow) s.ahead s := by
  by_cases there : s.peek.kind = kind
  · have moved : Balanced (Rule.advance >>= fun _ => follow s.peek) s.ahead s :=
      past (by rw [there]; exact other) second
    apply moved.step _ (.refl s)
    rw [run_bind, run_expect, if_pos there, next_some]
    rfl
  · apply still
    rw [run_bind, run_expect, if_neg there, next_none]
    rfl

private theorem items {item : Rule α} (each : ∀ s, Balanced item s.ahead s) (found : List α) (s : State) :
    Balanced (items item found) s.ahead s := by
  fun_induction itemsFrom item found s with
  | case1 found s comma t failed =>
    refine step (past (by rw [comma]; decide) ?_) (run_items_comma comma) (.refl s)
    apply (each s.advance).bind_run
    intro a u built
    rw [failed] at built
    cases built
  | case2 found s comma a t built ih =>
    refine step (past (by rw [comma]; decide) ?_) (run_items_comma comma) (.refl s)
    apply (each s.advance).bind_run
    intro b u built'
    rw [built] at built'
    cases built'
    exact ih
  | case3 found s other =>
    apply still
    rw [run_items_done other]

theorem listed {item : Rule α} (each : ∀ s, Balanced item s.ahead s) (s : State) :
    Balanced (listed item) s.ahead s := by
  apply peek
  split
  · rename_i closes
    exact past (by rw [closes]; decide) (still rfl)
  · apply (each s).bind
    intro first t
    apply (items each [first] t).bind
    intro all u
    exact expected (by decide) (still rfl)

/-- Where no brace is passed over, items that may start on any token but a closing brace are read up to
the one that closes the block around them. -/
theorem sequenceFrom {item : Rule α}
    (each : ∀ s, s.current.kind ≠ .rightBrace → Balanced item s.tokens s) (found : List α)
    (s : State) :
    s.LosesBrace (sequenceFrom item (· = .rightBrace) found s).2 ∨
      (sequenceFrom item (· = .rightBrace) found s).2.tokens = fromClosing 0 s.tokens := by
  fun_induction Rule.sequenceFrom item (fun kind => decide (kind = .rightBrace)) found s with
  | case1 found s ended =>
    rw [ended]
    exact .inr rfl
  | case2 found s proper stopped =>
    have closes : s.current.kind = .rightBrace := of_decide_eq_true stopped
    rw [State.tokens_of_proper proper, fromClosing_zero closes]
    exact .inr rfl
  | case3 found s proper goes ih =>
    have other : s.current.kind ≠ .rightBrace := fun closes => goes (decide_eq_true closes)
    have led := (item.leads s).trans (.advance _)
    rcases each s other with loses | same
    · exact .inl (loses.extend (.refl s) ((State.Leads.advance _).trans (leads_sequenceFrom item _ _ _)))
    · rcases ih with loses | rest
      · exact .inl (loses.extend led (.refl _))
      · exact .inr (rest.trans (same 0).symm)

end Balanced
end LittleScript.Rule

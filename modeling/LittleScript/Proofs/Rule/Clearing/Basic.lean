import LittleScript.Proofs.Rule.Reading
import LittleScript.Proofs.Run.Clearing

/-!
Rules that deal with every character that belongs to no token: what a rule uses of it, it reports, and
what it builds does not end on it.
-/

namespace LittleScript

open Run

/-- In the end, reports about the character and places where it is still ahead are as many as there were
with `front` ahead of `s`. What was built ends on another token. -/
structure Run.State.Cleared (s : State) (c : Token) (front : List Token) (built : Bool) (t : State) :
    Prop where
  due : t.due c t.ahead = s.due c front
  legal : built = true → t.current.kind ≠ .illegal

namespace Rule

/-- From `s`, the rule deals with the character wherever it stands in what the rule uses of `front`. -/
def Clears {α : Type} (c : Token) (rule : Rule α) (front : List Token) (s : State) : Prop :=
  s.Tracks c → s.Cleared c front (rule.run s).1.isSome (rule.run s).2

namespace Clears
variable {α β : Type} {c : Token} {rule : Rule α} {follow : α → Rule β} {front middle : List Token}
  {s t : State}

/-- The rule goes on like another one from a later state. -/
theorem step {other : Rule α} (h : Clears c other middle t) (run : rule.run s = other.run t)
    (led : s.Leads t) (same : t.due c middle = s.due c front) : Clears c rule front s := by
  intro tracks
  have rest := h (tracks.leads led)
  rw [run]
  exact ⟨rest.due.trans same, rest.legal⟩

/-- A current token of another kind needs no report. -/
theorem behind (legal : s.current.kind ≠ .illegal) (h : Clears c rule s.ahead s) :
    Clears c rule s.tokens s :=
  fun tracks => ⟨(h tracks).due.trans (tracks.due_tokens legal).symm, (h tracks).legal⟩

protected theorem pure {a : α} (legal : s.current.kind ≠ .illegal) : Clears c (pure a : Rule α) s.ahead s :=
  fun _ => ⟨rfl, fun _ => legal⟩

protected theorem skip : Clears c (Rule.skip : Rule α) s.ahead s :=
  fun _ => ⟨rfl, fun built => absurd built Bool.false_ne_true⟩

/-- Other reports do not count. -/
protected theorem refuse {cause : Cause} {location : Location}
    (other : Diagnostic.concerns c ⟨cause, location⟩ = false) :
    Clears c (Rule.refuse cause location : Rule α) s.ahead s := by
  refine fun _ => ⟨?_, fun built => absurd built Bool.false_ne_true⟩
  exact (s.due_diagnosed _).trans (by rw [other]; rfl)

/-- Where the character may be the current token, it is reported. -/
theorem refuseCurrent {cause : Cause}
    (about : cause = .illegalCharacter s.current.literal ∨ ∃ limit, cause = .nestingTooDeep limit) :
    Clears c (Rule.refuse cause s.current.location : Rule α) s.tokens s :=
  fun tracks => ⟨tracks.due_reported about, fun built => absurd built Bool.false_ne_true⟩

private theorem bind_run (first : Clears c rule front s)
    (second : ∀ a t, rule.run s = (some a, t) → t.current.kind ≠ .illegal → Clears c (follow a) t.ahead t) :
    Clears c (rule >>= follow) front s := by
  intro tracks
  have led := rule.leads s
  have before := first tracks
  rw [run_bind]
  cases run : rule.run s with
  | mk built t =>
    rw [run] at led before
    cases built with
    | none => exact before
    | some a =>
      have rest := second a t run (before.legal rfl) (tracks.leads led)
      exact ⟨rest.due.trans before.due, rest.legal⟩

protected theorem bind (first : Clears c rule front s)
    (second : ∀ a t, t.current.kind ≠ .illegal → Clears c (follow a) t.ahead t) :
    Clears c (rule >>= follow) front s := first.bind_run fun a t _ => second a t

theorem current {follow : Token → Rule β} (second : Clears c (follow s.current) front s) :
    Clears c (Rule.current >>= follow) front s := second

theorem peek {follow : Token → Rule β} (second : Clears c (follow s.peek) front s) :
    Clears c (Rule.peek >>= follow) front s := second

/-- What follows starts on the next token, which may be the character. -/
theorem advance {follow : Unit → Rule β} (second : Clears c (follow ()) s.advance.tokens s.advance) :
    Clears c (Rule.advance >>= follow) s.ahead s :=
  second.step rfl (.advance s) (State.due_silent s.quiet_advance.silent)

/-- The next token is used up. -/
theorem past {follow : Unit → Rule β} (legal : s.peek.kind ≠ .illegal)
    (second : Clears c (follow ()) s.advance.ahead s.advance) :
    Clears c (Rule.advance >>= follow) s.ahead s := advance (behind legal second)

/-- Another token than the expected one stays for what comes later. -/
theorem expected {follow : Token → Rule β} {kind : Kind} (proper : kind ≠ .illegal)
    (second : s.advance.current.kind = kind → Clears c (follow s.peek) s.advance.ahead s.advance) :
    Clears c (expect kind >>= follow) s.ahead s := by
  by_cases there : s.peek.kind = kind
  · have moved : Clears c (Rule.advance >>= fun _ => follow s.peek) s.ahead s :=
      past (there ▸ proper) (second there)
    apply moved.step _ (.refl s) rfl
    rw [run_bind, run_expect, if_pos there, next_some]
    rfl
  · have missed : Clears c (Rule.refuse (.unexpected kind s.peek.kind) s.peek.location : Rule β) s.ahead s :=
      .refuse rfl
    apply missed.step _ (.refl s) rfl
    rw [run_bind, run_expect, if_neg there, next_none]
    rfl

/-- The expected token is the last one. -/
theorem ended {kind : Kind} (proper : kind ≠ .illegal) {value : Token → β} :
    Clears c (expect kind >>= fun token => pure (value token)) s.ahead s :=
  expected proper fun there => .pure (there ▸ proper)

private theorem items {item : Rule α} (each : ∀ s, Clears c item s.ahead s) (found : List α) (s : State)
    (legal : s.current.kind ≠ .illegal) : Clears c (items item found) s.ahead s := by
  fun_induction itemsFrom item found s with
  | case1 found s comma t failed =>
    refine step (past (by rw [comma]; decide) ?_) (run_items_comma comma) (.refl s) rfl
    apply (each s.advance).bind_run
    intro a u built
    rw [failed] at built
    cases built
  | case2 found s comma a t built ih =>
    refine step (past (by rw [comma]; decide) ?_) (run_items_comma comma) (.refl s) rfl
    apply (each s.advance).bind_run
    intro b u built' legal
    rw [built] at built'
    cases built'
    exact ih legal
  | case3 found s other => exact step (.pure legal) (run_items_done other) (.refl s) rfl

theorem listed {item : Rule α} (each : ∀ s, Clears c item s.ahead s) (s : State) :
    Clears c (listed item) s.ahead s := by
  apply peek
  split
  · rename_i closes
    have legal : s.peek.kind ≠ .illegal := by rw [closes]; decide
    exact past legal (.pure legal)
  · apply (each s).bind
    intro first t legal
    apply (items each [first] t legal).bind
    intro all u _
    exact ended (by decide)

/-- Items that may start on the character: in the end it is due as often as in the beginning. -/
theorem sequenceFrom {item : Rule α} (each : ∀ s, Clears c item s.tokens s) (stops : Kind → Bool)
    (found : List α) (s : State) (tracks : s.Tracks c) :
    let t := (sequenceFrom item stops found s).2
    t.due c t.tokens = s.due c s.tokens := by
  fun_induction Rule.sequenceFrom item stops found s with
  | case1 => rfl
  | case2 => rfl
  | case3 found s proper goes ih =>
    have moved : (item.run s).2.advance.due c (item.run s).2.ahead = s.due c s.tokens :=
      (State.due_silent (State.quiet_advance _).silent).trans (each s tracks).due
    exact (ih (tracks.leads ((item.leads s).trans (.advance _)))).trans moved

end Clears
end Rule
end LittleScript

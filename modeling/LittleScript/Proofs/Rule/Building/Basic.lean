import LittleScript.Proofs.Rule.Yielding
import LittleScript.Proofs.Token.Lexical
import LittleScript.Rule.Nested

/-!
What rules build from the tokens of a text, also when something else was reported before or behind it.
Properties of what the parts build add up.
-/

namespace LittleScript

open Run

/-- The token was read off a text, or is the mark at its end. -/
def Token.Read (token : Token) : Prop :=
  token.kind = .illegal ∨ token.kind = .endOfInput ∨ Lexical token.kind token.literal

def Run.State.Read (s : State) : Prop := ∀ token ∈ s.tokens, token.Read

theorem Run.State.Read.leads {s t : State} (h : s.Read) (led : s.Leads t) : t.Read :=
  fun token mem => h token (led.tokens.subset mem)

private theorem Run.State.Read.head {s : State} (tokens : List Token) (h : ∀ token ∈ tokens, token.Read) :
    (tokens.head?.getD (Token.endMark s.finish)).Read := by
  cases tokens with
  | nil => exact .inr (.inl rfl)
  | cons token rest => exact h token List.mem_cons_self

theorem Run.State.Read.current {s : State} (h : s.Read) : s.current.Read := State.Read.head s.tokens h

theorem Run.State.Read.peek {s : State} (h : s.Read) : s.peek.Read :=
  State.Read.head s.tokens.tail fun token mem => h token (List.mem_of_mem_tail mem)

namespace Rule

def Builds {α : Type} (rule : Rule α) (P : α → Prop) : Prop :=
  ∀ s, s.Read → ∀ a t, rule.run s = (some a, t) → P a

namespace Builds
variable {α β : Type} {rule : Rule α} {follow : α → Rule β} {P : α → Prop} {Q : β → Prop}

protected theorem pure {a : α} (h : P a) : Builds (pure a) P := by
  intro s _ b t run
  obtain ⟨rfl, -⟩ : a = b ∧ s = t := by simpa using run
  exact h

protected theorem skip : Builds (Rule.skip : Rule α) P := fun _ _ _ _ run => by cases run

protected theorem refuse (cause : Cause) (location : Location) :
    Builds (Rule.refuse cause location : Rule α) P := fun _ _ _ _ run => by cases run

protected theorem bind (first : Builds rule P) (second : ∀ a, P a → Builds (follow a) Q) :
    Builds (rule >>= follow) Q :=
  fun s read => ((Yields.leads rule s).and (first s read)).bind fun a t built =>
    second a built.2 t (read.leads built.1)

theorem any (rule : Rule α) : Builds rule fun _ => True := fun _ _ _ _ _ => trivial

protected theorem current : Builds Rule.current Token.Read := by
  intro s read token t run
  obtain ⟨rfl, -⟩ : s.current = token ∧ s = t := by simpa using run
  exact read.current

protected theorem peek : Builds Rule.peek Token.Read := by
  intro s read token t run
  obtain ⟨rfl, -⟩ : s.peek = token ∧ s = t := by simpa using run
  exact read.peek

protected theorem expect (kind : Kind) :
    Builds (Rule.expect kind) fun token => token.Read ∧ token.kind = kind := by
  refine Builds.peek.bind fun token read => ?_
  by_cases same : token.kind = kind
  · rw [if_pos same]
    exact (any _).bind fun _ _ => .pure ⟨read, same⟩
  · rw [if_neg same]
    exact .refuse _ _

protected theorem listed (h : Builds rule P) : Builds (Rule.listed rule) fun all => ∀ a ∈ all, P a :=
  fun _ read => Yields.listed fun t led => h t (read.leads led)

protected theorem sequenceFrom (h : Builds rule P) (stops : Kind → Bool) {s : State} (read : s.Read) :
    ∀ a ∈ (Rule.sequenceFrom rule stops [] s).1, P a :=
  Yields.sequenceFrom (fun t led => h t (read.leads led)) stops fun _ none => absurd none List.not_mem_nil

protected theorem sequence (h : Builds rule P) (stops : Kind → Bool) :
    Builds (Rule.sequence rule stops) fun all => ∀ a ∈ all, P a :=
  fun _ read => Yields.sequence (fun t led => h t (read.leads led)) stops

end Builds

def BuildsOn {α : Type} (token : Token) (rule : Rule α) (P : α → Prop) : Prop :=
  ∀ s, s.Read → s.current = token → ∀ a t, rule.run s = (some a, t) → P a

def BuildsBefore {α : Type} (token : Token) (rule : Rule α) (P : α → Prop) : Prop :=
  ∀ s, s.Read → s.peek = token → ∀ a t, rule.run s = (some a, t) → P a

section
variable {α β : Type} {token : Token} {rule : Rule α} {P : α → Prop} {Q : β → Prop}

theorem BuildsOn.of_builds (h : Builds rule P) : BuildsOn token rule P := fun s read _ => h s read

theorem BuildsOn.current {follow : Token → Rule β} (h : BuildsOn token (follow token) Q) :
    BuildsOn token (Rule.current >>= follow) Q := by
  intro s read same a t run
  rw [run_bind, run_current, next_some, same] at run
  exact h s read same a t run

/-- What follows a token that was expected starts on it. -/
theorem Builds.expected {kind : Kind} {follow : Token → Rule β}
    (second : ∀ token, token.Read → token.kind = kind → BuildsOn token (follow token) Q) :
    Builds (Rule.expect kind >>= follow) Q := by
  intro s read b u run
  rw [run_bind, run_expect] at run
  split at run
  · rename_i there
    exact second s.peek read.peek there s.advance (read.leads (.advance s)) rfl b u run
  · cases run

theorem BuildsBefore.advance {follow : Unit → Rule β} (h : BuildsOn token (follow ()) Q) :
    BuildsBefore token (Rule.advance >>= follow) Q :=
  fun s read same => h s.advance (read.leads (.advance s)) same

end
end Rule
end LittleScript

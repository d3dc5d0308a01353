import LittleScript.Proofs.Run.Stretch
import LittleScript.Proofs.Rule.Sequencing
import LittleScript.Rule.Operand

/-!
Rules that do the same. Two runs are followed side by side, from states that count as the same; they
come to the same value and to states that count as the same again, unless the first run was lost on
the way. Rules that are built from agreeing rules agree.
-/

namespace LittleScript

open Run

/-- How two runs are compared. What the first run can lose, it has lost for good. -/
structure Comparison where
  /-- The states count as the same. -/
  Same : State → State → Prop
  /-- Between these states the first run has met something that ends the comparison. -/
  Lost : State → State → Prop
  tokens : ∀ {s s'}, Same s s' → s'.tokens = s.tokens
  finish : ∀ {s s'}, Same s s' → s'.finish = s.finish
  record : ∀ {s s'} (event), Same s s' → Same (s.record event) (s'.record event)
  advance : ∀ {s s'}, Same s s' → Same s.advance s'.advance
  lost : ∀ {s t u v}, s.Leads t → Lost t u → u.Leads v → Lost s v

namespace Comparison
variable {c : Comparison} {s s' : State}

theorem current (h : c.Same s s') : s'.current = s.current := by
  rw [State.current, State.current, c.tokens h, c.finish h]

theorem peek (h : c.Same s s') : s'.peek = s.peek := by
  rw [State.peek, State.peek, c.tokens h, c.finish h]

def exact : Comparison where
  Same s s' := s' = s
  Lost _ _ := False
  tokens h := by rw [h]
  finish h := by rw [h]
  record event h := by rw [h]
  advance h := by rw [h]
  lost _ h _ := h

end Comparison

namespace Rule

def SameOutcome (c : Comparison) {α : Type} (a b : Option α × State) : Prop :=
  b.1 = a.1 ∧ c.Same a.2 b.2

/-- From a state with at most `size` tokens, the second rule does what the first one does. -/
def Agree (c : Comparison) (size : Nat) {α : Type} (a b : Rule α) : Prop :=
  ∀ s s', c.Same s s' → s.tokens.length ≤ size →
    c.Lost s (a.run s).2 ∨ SameOutcome c (a.run s) (b.run s')

namespace Agree
variable {c : Comparison} {size : Nat} {α β : Type}

theorem run_eq {a b : Rule α} (h : Agree .exact size a b) {s : State} (bound : s.tokens.length ≤ size) :
    b.run s = a.run s := by
  obtain lost | ⟨value, same⟩ := h s s rfl bound
  · exact lost.elim
  · exact Prod.ext value same

theorem mono {a b : Rule α} {less : Nat} (h : Agree c size a b) (le : less ≤ size) :
    Agree c less a b := fun s s' same bound => h s s' same (Nat.le_trans bound le)

protected theorem pure (a : α) : Agree c size (pure a) (pure a) :=
  fun _ _ same _ => .inr ⟨rfl, same⟩

protected theorem skip : Agree c size (skip : Rule α) skip := fun _ _ same _ => .inr ⟨rfl, same⟩

protected theorem record (event : Event) : Agree c size (record event) (record event) :=
  fun _ _ same _ => .inr ⟨rfl, c.record event same⟩

protected theorem refuse (cause : Cause) (location : Location) :
    Agree c size (refuse cause location : Rule α) (refuse cause location) :=
  fun _ _ same _ => .inr ⟨rfl, c.record _ same⟩

protected theorem current : Agree c size current current :=
  fun _ _ same _ => .inr ⟨congrArg some (Comparison.current same), same⟩

protected theorem peek : Agree c size peek peek :=
  fun _ _ same _ => .inr ⟨congrArg some (Comparison.peek same), same⟩

protected theorem advance : Agree c size advance advance :=
  fun _ _ same _ => .inr ⟨rfl, c.advance same⟩

/-- One rule after the other. -/
protected theorem bind {a b : Rule α} {f g : α → Rule β} (h : Agree c size a b)
    (follow : ∀ x, Agree c size (f x) (g x)) : Agree c size (a >>= f) (b >>= g) := by
  intro s s' same bound
  obtain lost | ⟨value, same'⟩ := h s s' same bound
  · exact .inl (c.lost (.refl s) lost (leads_next a f s))
  · have shorter := Nat.le_trans (a.leads s).length_le bound
    simp only [run_bind]
    cases ha : a.run s with
    | mk x t =>
      cases hb : b.run s' with
      | mk y t' =>
        have led : s.Leads t := leads_of_run ha
        simp only [ha, hb] at value same' shorter
        subst value
        cases y with
        | none => exact .inr ⟨rfl, same'⟩
        | some y =>
          obtain lost | outcome := follow y t t' same' shorter
          · exact .inl (c.lost led lost (.refl _))
          · exact .inr outcome

/-- What comes behind an advance has one token less to read. -/
theorem advance_bind {a b : Unit → Rule α} (h : Agree c size (a ()) (b ())) :
    Agree c (size + 1) (advance >>= a) (advance >>= b) := by
  intro s s' same bound
  have shorter : s.advance.tokens.length ≤ size := by
    rw [State.tokens_advance, List.length_tail]
    omega
  obtain lost | outcome := h _ _ (c.advance same) shorter
  · exact .inl (c.lost (.advance s) lost (.refl _))
  · exact .inr outcome

protected theorem expect (kind : Kind) : Agree c size (expect kind) (expect kind) := by
  refine Agree.peek.bind fun token => ?_
  split
  · exact Agree.advance.bind fun _ => .pure token
  · exact .refuse _ _

/-- What comes behind a token that was expected has one token less to read. -/
theorem expect_bind {kind : Kind} {a b : Token → Rule α} (h : ∀ token, Agree c size (a token) (b token)) :
    Agree c (size + 1) (expect kind >>= a) (expect kind >>= b) := by
  intro s s' same bound
  simp only [run_bind, run_expect, Comparison.peek same]
  split
  · obtain lost | outcome :=
      advance_bind (a := fun _ => a s.peek) (b := fun _ => b s.peek) (h s.peek) s s' same bound
    · exact .inl lost
    · exact .inr outcome
  · exact .inr ⟨rfl, c.record _ same⟩

protected theorem andRecord {a b : Rule α} (h : Agree c size a b) (event : Option α → Event) :
    Agree c size (a.andRecord event) (b.andRecord event) := by
  intro s s' same bound
  obtain lost | ⟨value, same'⟩ := h s s' same bound
  · exact .inl (c.lost (.refl s) lost (.record _ _))
  · refine .inr ⟨value, ?_⟩
    simp only [run_andRecord, value]
    exact c.record _ same'

/-- Items with commas between them: each item agrees, so the lists do. -/
private theorem itemsFrom {a b : Rule α} (h : Agree c size a b) (found : List α) :
    ∀ s s', c.Same s s' → s.tokens.length ≤ size →
      c.Lost s (Rule.itemsFrom a found s).2 ∨
        SameOutcome c (Rule.itemsFrom a found s) (Rule.itemsFrom b found s') := by
  intro s s' same bound
  fun_induction Rule.itemsFrom a found s generalizing s' with
  | case1 found s comma t failed =>
    have shorter := Nat.le_trans (State.Leads.advance s).length_le bound
    have outcome := h _ _ (c.advance same) shorter
    rw [failed] at outcome
    obtain lost | ⟨value, same'⟩ := outcome
    · exact .inl (c.lost (.advance s) lost (.refl t))
    · right
      rw [Rule.itemsFrom, dif_pos (by rw [Comparison.peek same, comma])]
      split
      · rename_i hb
        rw [hb] at same'
        exact ⟨rfl, same'⟩
      · rename_i hb
        simp [hb] at value
  | case2 found s comma x t built ih =>
    have shorter := Nat.le_trans (State.Leads.advance s).length_le bound
    have led : s.Leads t := (State.Leads.advance s).trans (leads_of_run built)
    have outcome := h _ _ (c.advance same) shorter
    rw [built] at outcome
    obtain lost | ⟨value, same'⟩ := outcome
    · exact .inl (c.lost (.advance s) lost (leads_itemsFrom a _ t))
    · rw [Rule.itemsFrom.eq_def b found s', dif_pos (by rw [Comparison.peek same, comma])]
      split
      · rename_i hb
        simp [hb] at value
      · rename_i y t' hb
        rw [hb] at value same'
        obtain rfl : y = x := by simpa using value
        obtain lost | outcome := ih t' same' (Nat.le_trans led.length_le bound)
        · exact .inl (c.lost led lost (.refl _))
        · exact .inr outcome
  | case3 found s other =>
    rw [Rule.itemsFrom, dif_neg (by rw [Comparison.peek same]; exact other)]
    exact .inr ⟨rfl, same⟩

protected theorem items {a b : Rule α} (h : Agree c size a b) (found : List α) :
    Agree c size (items a found) (items b found) := itemsFrom h found

protected theorem listed {a b : Rule α} (h : Agree c size a b) :
    Agree c size (listed a) (listed b) := by
  refine Agree.peek.bind fun token => ?_
  split
  · exact Agree.advance.bind fun _ => .pure []
  · refine h.bind fun first => (Agree.items h [first]).bind fun all => ?_
    exact (Agree.expect _).bind fun _ => .pure all

/-- Items one after the other. An item that builds nothing does not end the comparison. -/
theorem sequenceFrom {a b : Rule α} (h : Agree c size a b) (stops : Kind → Bool) (found : List α) :
    ∀ s s', c.Same s s' → s.tokens.length ≤ size →
      c.Lost s (Rule.sequenceFrom a stops found s).2 ∨
        ((Rule.sequenceFrom b stops found s').1 = (Rule.sequenceFrom a stops found s).1 ∧
          c.Same (Rule.sequenceFrom a stops found s).2 (Rule.sequenceFrom b stops found s').2) := by
  intro s s' same bound
  fun_induction Rule.sequenceFrom a stops found s generalizing s' with
  | case1 found s ended =>
    rw [Rule.sequenceFrom, dif_pos (by rw [c.tokens same, ended])]
    exact .inr ⟨rfl, same⟩
  | case2 found s proper stopped =>
    rw [Rule.sequenceFrom, dif_neg (by rw [c.tokens same]; exact proper),
      if_pos (by rw [Comparison.current same]; exact stopped)]
    exact .inr ⟨rfl, same⟩
  | case3 found s proper goes ih =>
    have led : s.Leads (a.run s).2.advance := (a.leads s).trans (.advance _)
    rw [Rule.sequenceFrom.eq_def b stops found s', dif_neg (by rw [c.tokens same]; exact proper),
      if_neg (by rw [Comparison.current same]; exact goes)]
    obtain lost | ⟨value, same'⟩ := h s s' same bound
    · exact .inl (c.lost (.refl s) lost ((State.Leads.advance _).trans (leads_sequenceFrom ..)))
    · rw [value]
      obtain lost | outcome := ih _ (c.advance same') (Nat.le_trans led.length_le bound)
      · exact .inl (c.lost led lost (.refl _))
      · exact .inr outcome

protected theorem sequence {a b : Rule α} (h : Agree c size a b) (stops : Kind → Bool) :
    Agree c size (sequence a stops) (sequence b stops) := by
  intro s s' same bound
  obtain lost | ⟨value, same'⟩ := sequenceFrom h stops [] s s' same bound
  · exact .inl lost
  · exact .inr ⟨congrArg some value, same'⟩

end Agree
end Rule
end LittleScript

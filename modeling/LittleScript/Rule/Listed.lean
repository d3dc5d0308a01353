import LittleScript.Rule.Basic

/-!
Lists of items: with commas between them up to a closing parenthesis, or one after the other up to a
token that stops them. Both end because every item uses a token.
-/

namespace LittleScript.Rule

open Run

/-- Items up to one without a comma behind it, put behind those already `found` (latest first). -/
def itemsFrom {α : Type} (item : Rule α) (found : List α) (s : State) : Option (List α) × State :=
  if _ : s.peek.kind = .comma then
    match _ : item.run s.advance with
    | (none, t) => (none, t)
    | (some a, t) => itemsFrom item (a :: found) t
  else (some found.reverse, s)
termination_by s.tokens.length
decreasing_by
  have used := State.length_advance_lt (.refl s)
    (State.ne_nil_of_peek (by rw [‹s.peek.kind = .comma›]; decide))
  have bound := (leads_of_run ‹item.run s.advance = (some a, t)›).length_le
  exact Nat.lt_of_le_of_lt bound used

theorem leads_itemsFrom {α : Type} (item : Rule α) (found : List α) (s : State) :
    s.Leads (itemsFrom item found s).2 := by
  fun_induction itemsFrom item found s with
  | case1 found s comma t failed => exact (State.Leads.advance s).trans (leads_of_run failed)
  | case2 found s comma a t built ih =>
    exact (State.Leads.advance s).trans ((leads_of_run built).trans ih)
  | case3 found s other => exact .refl s

def items {α : Type} (item : Rule α) (found : List α) : Rule (List α) :=
  ⟨itemsFrom item found, leads_itemsFrom item found⟩

/-- Items with commas between them, from an opening parenthesis to the closing one. An item starts
behind the current token and ends on its own last token. -/
def listed {α : Type} (item : Rule α) : Rule (List α) := do
  if (← peek).kind = .rightParen then
    advance
    return []
  else
    let first ← item
    let all ← items item [first]
    let _ ← expect .rightParen
    return all

/-- Items up to a token of a kind that `stops` them or to the end, put behind those already `found`
(latest first). Each item starts on the token behind the one that the item before it ended on; one
that builds nothing is left out. -/
def sequenceFrom {α : Type} (item : Rule α) (stops : Kind → Bool) (found : List α) (s : State) :
    List α × State :=
  if _ : s.tokens = [] then (found.reverse, s)
  else if stops s.current.kind then (found.reverse, s)
  else
    sequenceFrom item stops ((item.run s).1.toList ++ found) (item.run s).2.advance
termination_by s.tokens.length
decreasing_by exact State.length_advance_lt (item.leads s) ‹_›

theorem leads_sequenceFrom {α : Type} (item : Rule α) (stops : Kind → Bool) (found : List α)
    (s : State) : s.Leads (sequenceFrom item stops found s).2 := by
  fun_induction sequenceFrom item stops found s with
  | case1 => exact .refl _
  | case2 => exact .refl _
  | case3 found s _ _ ih => exact (item.leads s).trans ((State.Leads.advance _).trans ih)

def sequence {α : Type} (item : Rule α) (stops : Kind → Bool) : Rule (List α) where
  run s :=
    let (found, t) := sequenceFrom item stops [] s
    (some found, t)
  leads s := leads_sequenceFrom item stops [] s

end LittleScript.Rule

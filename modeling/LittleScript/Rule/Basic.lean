import LittleScript.Run.State

/-!
Rules of the parser. A rule starts on the first token of what it reads and ends on the last one that
it used. One that builds nothing has recorded why, and leaves the state that it came to.
-/

namespace LittleScript

open Run

/-- A rule runs from any state. It may build a value, and it comes to a later state. -/
structure Rule (α : Type) where
  run : State → Option α × State
  leads : ∀ s : State, s.Leads (run s).2

namespace Rule

/-- The state of an outcome is a later one. -/
theorem leads_of_run {α : Type} {rule : Rule α} {s t : State} {value : Option α}
    (h : rule.run s = (value, t)) : s.Leads t := by
  have later := rule.leads s
  rwa [h] at later

protected def pure {α : Type} (a : α) : Rule α := ⟨fun s => (some a, s), fun s => .refl s⟩

def next {α β : Type} (follow : α → Rule β) : Option α × State → Option β × State
  | (none, s) => (none, s)
  | (some a, s) => (follow a).run s

protected def bind {α β : Type} (rule : Rule α) (follow : α → Rule β) : Rule β where
  run s := next follow (rule.run s)
  leads s := by
    cases h : rule.run s with
    | mk value t =>
      cases value with
      | none => exact leads_of_run h
      | some a => exact (leads_of_run h).trans ((follow a).leads t)

instance : Monad Rule where
  pure := Rule.pure
  bind := Rule.bind

def current : Rule Token := ⟨fun s => (some s.current, s), fun s => .refl s⟩

def peek : Rule Token := ⟨fun s => (some s.peek, s), fun s => .refl s⟩

def skip {α : Type} : Rule α := ⟨fun s => (none, s), fun s => .refl s⟩

def record (event : Event) : Rule Unit :=
  ⟨fun s => (some (), s.record event), fun s => .record s event⟩

def advance : Rule Unit := ⟨fun s => (some (), s.advance), fun s => .advance s⟩

def refuse {α : Type} (cause : Cause) (location : Location) : Rule α :=
  ⟨fun s => (none, s.record (.diagnosed ⟨cause, location⟩)), fun s => .record s _⟩

/-- Moves to the next token if it has this kind. Otherwise reports it and stays. -/
def expect (kind : Kind) : Rule Token := do
  let token ← peek
  if token.kind = kind then
    advance
    return token
  else
    refuse (.unexpected kind token.kind) token.location

def refuseLevel {α : Type} (limit : Nat) : Rule α := do
  refuse (.nestingTooDeep limit) (← current).location

def openLevel : Rule Unit := ⟨fun s => (some (), s.takeLevel), fun s => .takeLevel s⟩

def takeLevel (limit : Nat) : Rule Unit where
  run s := if s.depth < limit then openLevel.run s else (refuseLevel limit : Rule Unit).run s
  leads s := by
    split
    · exact openLevel.leads s
    · exact (refuseLevel limit : Rule Unit).leads s

def andRecord {α : Type} (rule : Rule α) (event : Option α → Event) : Rule α where
  run s := ((rule.run s).1, (rule.run s).2.record (event (rule.run s).1))
  leads s := (rule.leads s).trans (.record _ _)

def andReturnLevels {α : Type} (rule : Rule α) (count : Nat) : Rule α where
  run s := ((rule.run s).1, (rule.run s).2.returnLevels count)
  leads s := (rule.leads s).trans (.returnLevels _ count)

@[simp] theorem next_none {α β : Type} (follow : α → Rule β) (s : State) :
    next follow (none, s) = (none, s) := rfl

@[simp] theorem next_some {α β : Type} (follow : α → Rule β) (a : α) (s : State) :
    next follow (some a, s) = (follow a).run s := rfl

@[simp] theorem run_pure {α : Type} (a : α) (s : State) :
    (pure a : Rule α).run s = (some a, s) := rfl

@[simp] theorem run_bind {α β : Type} (rule : Rule α) (follow : α → Rule β) (s : State) :
    (rule >>= follow).run s = next follow (rule.run s) := rfl

@[simp] theorem run_current (s : State) : current.run s = (some s.current, s) := rfl

@[simp] theorem run_peek (s : State) : peek.run s = (some s.peek, s) := rfl

@[simp] theorem run_skip {α : Type} (s : State) : (skip : Rule α).run s = (none, s) := rfl

@[simp] theorem run_record (event : Event) (s : State) :
    (record event).run s = (some (), s.record event) := rfl

@[simp] theorem run_advance (s : State) : advance.run s = (some (), s.advance) := rfl

@[simp] theorem run_refuse {α : Type} (cause : Cause) (location : Location) (s : State) :
    (refuse cause location : Rule α).run s = (none, s.record (.diagnosed ⟨cause, location⟩)) := rfl

/-- A token that was expected is used; another one is reported at its own place. -/
theorem run_expect (kind : Kind) (s : State) :
    (expect kind).run s =
      if s.peek.kind = kind then (some s.peek, s.advance)
      else (none, s.record (.diagnosed ⟨.unexpected kind s.peek.kind, s.peek.location⟩)) := by
  simp only [expect, run_bind, run_peek, next_some]
  split <;> rfl

@[simp] theorem run_refuseLevel {α : Type} (limit : Nat) (s : State) :
    (refuseLevel limit : Rule α).run s =
      (none, s.record (.diagnosed ⟨.nestingTooDeep limit, s.current.location⟩)) := rfl

/-- The limit is reported at the current token, which stays the current one. -/
theorem run_takeLevel (limit : Nat) (s : State) :
    (takeLevel limit).run s =
      if s.depth < limit then (some (), s.takeLevel)
      else (none, s.record (.diagnosed ⟨.nestingTooDeep limit, s.current.location⟩)) := rfl

theorem run_andRecord {α : Type} (rule : Rule α) (event : Option α → Event) (s : State) :
    (rule.andRecord event).run s = ((rule.run s).1, (rule.run s).2.record (event (rule.run s).1)) :=
  rfl

theorem run_andReturnLevels {α : Type} (rule : Rule α) (count : Nat) (s : State) :
    (rule.andReturnLevels count).run s = ((rule.run s).1, (rule.run s).2.returnLevels count) := rfl

end Rule
end LittleScript

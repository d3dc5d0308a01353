import LittleScript.Rule.Operand

/-!
Expressions and blocks, level by level. An operand comes first; then links follow as long as they
bind tighter than the expression allows. Each link keeps a level open until the whole expression ends,
so the number of levels bounds the depth of the tree.
-/

namespace LittleScript

open Run

def linkAbove? (precedence : Precedence) (kind : Kind) : Option Link :=
  (Link.ofKind? kind).filter (precedence < ·.precedence)

/-- Part of a chain of links. Its outcome also tells how many levels the chain holds open. -/
structure Chain where
  run : State → Option Expression × Nat × State
  leads : ∀ s : State, s.Leads (run s).2.2

namespace Chain

def done (left : Expression) (held : Nat) : Chain :=
  ⟨fun s => (some left, held, s), fun s => .refl s⟩

def next {α : Type} (held : Nat) (follow : α → Chain) :
    Option α × State → Option Expression × Nat × State
  | (none, s) => (none, held, s)
  | (some a, s) => (follow a).run s

def andThen {α : Type} (rule : Rule α) (held : Nat) (follow : α → Chain) : Chain where
  run s := next held follow (rule.run s)
  leads s := by
    cases h : rule.run s with
    | mk value t =>
      cases value with
      | none => exact Rule.leads_of_run h
      | some a => exact (Rule.leads_of_run h).trans ((follow a).leads t)

/-- The expression ends: the levels that its chain holds are closed, whatever it came to. -/
def close (chain : Chain) : Rule Expression where
  run s := ((chain.run s).1, (chain.run s).2.2.returnLevels (chain.run s).2.1)
  leads s := (chain.leads s).trans (.returnLevels _ _)

@[simp] theorem run_done (left : Expression) (held : Nat) (s : State) :
    (done left held).run s = (some left, held, s) := rfl

@[simp] theorem next_none {α : Type} (held : Nat) (follow : α → Chain) (s : State) :
    next held follow (none, s) = (none, held, s) := rfl

@[simp] theorem next_some {α : Type} (held : Nat) (follow : α → Chain) (a : α) (s : State) :
    next held follow (some a, s) = (follow a).run s := rfl

@[simp] theorem run_andThen {α : Type} (rule : Rule α) (held : Nat) (follow : α → Chain)
    (s : State) : (andThen rule held follow).run s = next held follow (rule.run s) := rfl

theorem run_close (chain : Chain) (s : State) :
    chain.close.run s = ((chain.run s).1, (chain.run s).2.2.returnLevels (chain.run s).2.1) := rfl

end Chain

namespace Rule

mutual

/-- Reads an expression with `levels` more levels to open. With none left it is refused. -/
def expression (limit levels : Nat) (precedence : Precedence) : Rule Expression := do
  record (.expressionBegun (← current) precedence)
  match levels with
  | 0 => refuseLevel limit
  | levels + 1 =>
    takeLevel limit
    let inner : Inner := ⟨expression limit levels, block limit levels⟩
    (Chain.andThen (operand inner) 1 fun left => links limit levels precedence left 1).close
termination_by structural levels

/-- Goes on from `left`, with `held` levels open, by links that bind tighter than `precedence`. -/
def links (limit levels : Nat) (precedence : Precedence) (left : Expression) (held : Nat) : Chain :=
  Chain.andThen peek held fun token =>
    match linkAbove? precedence token.kind with
    | none => .done left held
    | some link =>
      match levels with
      | 0 => .andThen (refuseLevel limit) held fun value => .done value held
      | levels + 1 =>
        .andThen (takeLevel limit) held fun _ =>
          let inner : Inner := ⟨expression limit levels, block limit levels⟩
          .andThen (linked inner link left) (held + 1) fun left =>
            links limit levels precedence left (held + 1)
termination_by structural levels

def block (limit levels : Nat) : Rule Block :=
  match levels with
  | 0 => refuseLevel limit
  | levels + 1 => do
    takeLevel limit
    let inner : Inner := ⟨expression limit levels, block limit levels⟩
    let read ← (openBlock inner).andReturnLevels 1
    closed read
termination_by structural levels

end

def within (limit levels : Nat) : Inner := ⟨expression limit levels, block limit levels⟩

end Rule
end LittleScript

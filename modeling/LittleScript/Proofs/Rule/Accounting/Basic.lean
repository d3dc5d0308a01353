import LittleScript.Proofs.Rule.Silence
import LittleScript.Proofs.Run.Operands

/-!
What rules read as numbers. They leave a journal that accounts for its numbers, if they were given one. Where they
report nothing, the numbers in what they build are those that were looked for as operands meanwhile.
-/

namespace LittleScript

open Run

/-- Between the states numbers are looked for as operands which, put behind those in `front`, are `all`. -/
def Run.State.Adds (s t : State) (front all : List (Token × Int)) : Prop :=
  ∃ added, t.journal.numbers = s.journal.numbers ++ added ∧ front ++ added = all

namespace Run.State.Adds
variable {s t u : State} {front mid all : List (Token × Int)}

theorem still (same : t.journal.numbers = s.journal.numbers) : s.Adds t front front :=
  ⟨[], same.trans (List.append_nil _).symm, List.append_nil _⟩

private theorem record (h : s.journal.Accounts) (event : Event) : s.Adds (s.record event) front front :=
  .still (h.settled.numbers_record event)

private theorem advance (h : s.journal.Accounts) : s.Adds s.advance front front :=
  .still (h.settled.numbers_record (.moved s.peek))

theorem takeLevel (h : s.journal.Accounts) : s.Adds s.takeLevel front front :=
  .still (h.settled.numbers_record .levelTaken)

theorem returnLevels (h : s.journal.Accounts) (count : Nat) : s.Adds (s.returnLevels count) front front :=
  .still (h.settled.numbers_record (.levelsReturned count))

theorem trans (first : s.Adds t front mid) (second : t.Adds u mid all) : s.Adds u front all := by
  obtain ⟨added, numbers, rfl⟩ := first
  obtain ⟨more, numbers', rfl⟩ := second
  exact ⟨added ++ more, by rw [numbers', numbers, List.append_assoc], (List.append_assoc _ _ _).symm⟩

/-- A number on which an expression begins and is given its level. -/
theorem sought (h : s.journal.Accounts) (precedence : Precedence) :
    s.Adds ((s.advance.record (.expressionBegun s.advance.current precedence)).takeLevel) []
      s.advance.current.number?.toList :=
  ⟨_, h.settled.numbers_sought s.peek precedence, rfl⟩

/-- Numbers that were there before stand in front. -/
private theorem behind (h : s.Adds t [] all) (front : List (Token × Int)) : s.Adds t front (front ++ all) := by
  obtain ⟨added, numbers, rfl⟩ := h
  exact ⟨added, numbers, rfl⟩

end Run.State.Adds

namespace Rule

/-- From `s` the rule comes to a journal that accounts for its numbers. If it reports nothing, it builds something
that has the numbers in `front` and, behind them, those that it has looked for as operands. -/
structure AccountsAt {α : Type} (front : List (Token × Int)) (rule : Rule α) (view : α → List (Token × Int))
    (s : State) : Prop where
  kept : (rule.run s).2.journal.Accounts
  adds : Ensures rule s fun a t => s.Adds t front (view a)

def Accounts {α : Type} (front : List (Token × Int)) (rule : Rule α) (view : α → List (Token × Int)) : Prop :=
  ∀ s, s.journal.Accounts → AccountsAt front rule view s

/-- The same for a rule that may also build nothing, if it has looked for no number then. -/
structure Tallies {α : Type} (rule : Rule α) (view : α → List (Token × Int)) : Prop where
  kept : ∀ s, s.journal.Accounts → (rule.run s).2.journal.Accounts
  adds : ∀ s : State, s.journal.Accounts → s.Silent (rule.run s).2 →
    s.Adds (rule.run s).2 [] ((rule.run s).1.toList.flatMap view)

section
variable {α β : Type} {front mid : List (Token × Int)} {rule : Rule α} {follow : α → Rule β}
  {view : α → List (Token × Int)} {goal : β → List (Token × Int)} {s t : State}

private theorem kept_bind (first : (rule.run s).2.journal.Accounts)
    (second : ∀ a t, t.journal.Accounts → ((follow a).run t).2.journal.Accounts) :
    ((rule >>= follow).run s).2.journal.Accounts := by
  rw [run_bind]
  cases run : rule.run s with
  | mk value t =>
    rw [run] at first
    cases value with
    | none => exact first
    | some a => exact second a t first

namespace AccountsAt

theorem of_run {a : α} (run : rule.run s = (some a, t)) (kept : t.journal.Accounts)
    (added : s.Adds t front (view a)) : AccountsAt front rule view s :=
  ⟨by rw [run]; exact kept, .of_run run added⟩

/-- Something is reported. -/
theorem of_heard (run : rule.run s = (none, t)) (kept : t.journal.Accounts) (heard : ¬ s.Silent t) :
    AccountsAt front rule view s := by
  refine ⟨by rw [run]; exact kept, fun silent => ?_⟩
  rw [run] at silent
  exact absurd silent heard

/-- The rule goes on as another one does from a later state. -/
theorem enter {other : Rule α} (run : rule.run s = other.run t) (unheard : s.Silent t)
    (added : s.Adds t front mid) (h : AccountsAt mid other view t) : AccountsAt front rule view s := by
  refine ⟨by rw [run]; exact h.kept, fun silent => ?_⟩
  rw [run] at silent ⊢
  obtain ⟨a, u, run', more⟩ := h.adds (Eq.trans silent (Eq.symm unheard))
  exact ⟨a, u, run', added.trans more⟩

/-- What comes behind a rule is given a journal that accounts for its numbers, too. -/
theorem ensures (h : AccountsAt front rule view s) :
    Ensures rule s fun a t => t.journal.Accounts ∧ s.Adds t front (view a) := by
  intro silent
  obtain ⟨a, t, run, added⟩ := h.adds silent
  have kept := h.kept
  rw [run] at kept
  exact ⟨a, t, run, kept, added⟩

protected theorem bind (first : AccountsAt front rule view s)
    (second : ∀ a, Accounts (view a) (follow a) goal) : AccountsAt front (rule >>= follow) goal s where
  kept := kept_bind first.kept fun a t before => (second a t before).kept
  adds := first.ensures.bind fun a t built =>
    (second a t built.1).adds.weaken fun _ _ more => built.2.trans more

end AccountsAt

namespace Accounts

protected theorem pure {a : α} (same : view a = front) : Accounts front (pure a) view :=
  fun _ h => .of_run rfl h (same ▸ .still rfl)

protected theorem current : Accounts front Rule.current fun _ => front := fun _ h => .of_run rfl h (.still rfl)

protected theorem peek : Accounts front Rule.peek fun _ => front := fun _ h => .of_run rfl h (.still rfl)

protected theorem advance : Accounts front Rule.advance fun _ => front :=
  fun _ h => .of_run rfl (h.record rfl rfl) (.advance h)

protected theorem record {event : Event} (begins : event.operand? .levelTaken = none)
    (other : event.diagnostic?.any Diagnostic.ofNumber = false) :
    Accounts front (Rule.record event) fun _ => front :=
  fun _ h => .of_run rfl (h.record begins other) (.record h event)

/-- A report about anything but a number. -/
protected theorem refuse {cause : Cause} {location : Location}
    (other : Diagnostic.ofNumber ⟨cause, location⟩ = false) : Accounts front (Rule.refuse cause location) view :=
  fun s h => .of_heard rfl (h.record rfl other) (s.not_silent_diagnosed _)

protected theorem bind (first : Accounts front rule view) (second : ∀ a, Accounts (view a) (follow a) goal) :
    Accounts front (rule >>= follow) goal := fun s h => (first s h).bind second

theorem behind (h : Accounts [] rule view) (front : List (Token × Int)) :
    Accounts front rule fun a => front ++ view a :=
  fun s before => ⟨(h s before).kept, (h s before).adds.weaken fun _ _ added => added.behind front⟩

protected theorem andReturnLevels (h : Accounts front rule view) (count : Nat) :
    Accounts front (rule.andReturnLevels count) view := by
  refine fun s before => ⟨(h s before).kept.record rfl rfl, fun silent => ?_⟩
  have ended := State.diagnostics_returnLevels (rule.run s).2 count
  obtain ⟨a, t, run, kept, added⟩ := (h s before).ensures (Eq.trans ended.symm silent)
  refine ⟨a, t.returnLevels count, ?_, added.trans (.returnLevels kept count)⟩
  rw [run_andReturnLevels, run]

protected theorem expect (kind : Kind) : Accounts front (expect kind) fun _ => front := by
  refine Accounts.peek.bind fun token => ?_
  split
  · exact Accounts.advance.bind fun _ => .pure rfl
  · exact .refuse rfl

/-- Items behind those already found. -/
protected theorem items (item : Accounts [] rule view) (found : List α) :
    Accounts (found.reverse.flatMap view) (items rule found) (List.flatMap view) := by
  refine fun s h => ⟨?_, ?_⟩
  · change (itemsFrom rule found s).2.journal.Accounts
    fun_induction itemsFrom rule found s with
    | case1 found s comma t failed =>
      have read := (item s.advance (h.record rfl rfl)).kept
      rwa [failed] at read
    | case2 found s comma a t built ih =>
      have read := (item s.advance (h.record rfl rfl)).kept
      rw [built] at read
      exact ih read
    | case3 found s other => exact h
  · change s.Silent (itemsFrom rule found s).2 → ∃ all t, itemsFrom rule found s = (some all, t) ∧ _
    intro silent
    fun_induction itemsFrom rule found s with
    | case1 found s comma t failed =>
      -- An item that is not built has reported something.
      have inside := (State.Silent.split (.advance s) (leads_of_run failed) silent).2
      obtain ⟨a, u, run, -⟩ := (item s.advance (h.record rfl rfl)).adds (by rw [failed]; exact inside)
      rw [failed] at run
      cases run
    | case2 found s comma a t built ih =>
      have led := leads_of_run built
      have rest := leads_itemsFrom rule (a :: found) t
      have behind := (State.Silent.split (.advance s) (led.trans rest) silent).2
      obtain ⟨inside, behind⟩ := State.Silent.split led rest behind
      obtain ⟨b, u, run, kept, added⟩ := (item s.advance (h.record rfl rfl)).ensures (by rw [built]; exact inside)
      obtain ⟨⟨⟩, rfl⟩ := Prod.mk.inj (built.symm.trans run)
      obtain ⟨all, u, run, more⟩ := ih kept behind
      refine ⟨all, u, run, (State.Adds.advance h).trans ((added.behind _).trans ?_)⟩
      rwa [List.reverse_cons, List.flatMap_append, List.flatMap_singleton] at more
    | case3 found s other => exact ⟨_, s, rfl, .still rfl⟩

protected theorem listed (item : Accounts [] rule view) : Accounts [] (listed rule) (List.flatMap view) := by
  refine Accounts.peek.bind fun token => ?_
  split
  · exact Accounts.advance.bind fun _ => .pure rfl
  · refine item.bind fun first => ?_
    have one : [first].reverse.flatMap view = view first := List.flatMap_singleton view first
    have others : Accounts (view first) (items rule [first]) (List.flatMap view) := one ▸ item.items [first]
    exact others.bind fun all => (Accounts.expect _).bind fun _ => .pure rfl

/-- A rule that never fails without a word. -/
theorem tallies (h : Accounts [] rule view) : Tallies rule view where
  kept s before := (h s before).kept
  adds s before silent := by
    obtain ⟨a, t, run, added⟩ := (h s before).adds silent
    rw [run, Option.toList_some, List.flatMap_singleton]
    exact added

end Accounts

/-- There is at most one thing to turn round. -/
private theorem reverse_toList (value : Option α) : value.toList.reverse = value.toList := by
  cases value <;> rfl

namespace Tallies

protected theorem skip : Tallies Rule.skip view := ⟨fun _ h => h, fun _ _ _ => .still rfl⟩

/-- Behind a rule that never fails without a word and has no numbers. -/
theorem after (first : Accounts [] rule fun _ => []) (second : ∀ a, Tallies (follow a) goal) :
    Tallies (rule >>= follow) goal where
  kept s h := kept_bind (first s h).kept fun a => (second a).kept
  adds s h silent := by
    obtain ⟨before, behind⟩ := silent.split (rule.leads s) (leads_next rule follow s)
    obtain ⟨a, t, run, kept, added⟩ := (first s h).ensures before
    have same : (rule >>= follow).run s = (follow a).run t := by rw [run_bind, run, next_some]
    rw [run, same] at behind
    rw [same]
    exact added.trans ((second a).adds t kept behind)

/-- In front of rules that never fail without a word. -/
theorem before (first : Tallies rule view) (second : ∀ a, Accounts (view a) (follow a) goal) :
    Tallies (rule >>= follow) goal where
  kept s h := kept_bind (first.kept s h) fun a t before => (second a t before).kept
  adds s h silent := by
    obtain ⟨before, behind⟩ := silent.split (rule.leads s) (leads_next rule follow s)
    have added := first.adds s h before
    have kept := first.kept s h
    rw [run_bind] at behind ⊢
    cases run : rule.run s with
    | mk value t =>
      rw [run] at added kept behind
      cases value with
      | none => exact added
      | some a =>
        obtain ⟨b, u, run', more⟩ := (second a t kept).adds behind
        rw [Option.toList_some, List.flatMap_singleton] at added
        rw [next_some, run', Option.toList_some, List.flatMap_singleton]
        exact added.trans more

protected theorem andRecord {event : Option α → Event} (h : Tallies rule view)
    (unheard : ∀ value, (event value).diagnostic? = none)
    (begins : ∀ value, (event value).operand? .levelTaken = none) : Tallies (rule.andRecord event) view where
  kept s before := (h.kept s before).record (begins _) (by rw [unheard]; rfl)
  adds s before silent := by
    have ended := (rule.run s).2.quiet_record (event (rule.run s).1) (unheard _)
    have added := h.adds s before (Eq.trans (Eq.symm ended.silent) silent)
    exact added.trans (.record (h.kept s before) _)

/-- Items of a sequence, behind those already found. -/
theorem kept_sequenceFrom (item : Tallies rule view) (stops : Kind → Bool) (found : List α) (s : State)
    (h : s.journal.Accounts) : (sequenceFrom rule stops found s).2.journal.Accounts := by
  fun_induction Rule.sequenceFrom rule stops found s with
  | case1 => exact h
  | case2 => exact h
  | case3 found s proper goes ih => exact ih ((item.kept s h).record rfl rfl)

/-- They add their numbers one after the other. Where nothing is built, none is added. -/
theorem adds_sequenceFrom (item : Tallies rule view) (stops : Kind → Bool) (found : List α) (s : State)
    (h : s.journal.Accounts) (silent : s.Silent (sequenceFrom rule stops found s).2) :
    s.Adds (sequenceFrom rule stops found s).2 (found.reverse.flatMap view)
      ((sequenceFrom rule stops found s).1.flatMap view) := by
  fun_induction Rule.sequenceFrom rule stops found s with
  | case1 => exact .still rfl
  | case2 => exact .still rfl
  | case3 found s proper goes ih =>
    have kept := item.kept s h
    have rest := leads_sequenceFrom rule stops ((rule.run s).1.toList ++ found) (rule.run s).2.advance
    obtain ⟨inside, behind⟩ := State.Silent.split (rule.leads s) ((State.Leads.advance _).trans rest) silent
    obtain ⟨-, others⟩ := State.Silent.split (.advance _) rest behind
    have one := (item.adds s h inside).behind (found.reverse.flatMap view)
    have more := ih (kept.record rfl rfl) others
    rw [List.reverse_append, List.flatMap_append, reverse_toList] at more
    exact one.trans ((State.Adds.advance kept).trans more)

/-- A sequence is always built. -/
protected theorem sequence (item : Tallies rule view) (stops : Kind → Bool) :
    Accounts [] (sequence rule stops) (List.flatMap view) := by
  refine fun s h => ⟨item.kept_sequenceFrom stops [] s h, fun silent => ?_⟩
  exact ⟨_, _, rfl, item.adds_sequenceFrom stops [] s h silent⟩

end Tallies
end
end Rule
end LittleScript

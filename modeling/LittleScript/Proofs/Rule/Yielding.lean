import LittleScript.Proofs.Rule.Reading

/-!
What a rule has built and where it has come to, if it builds something, whatever was reported. Facts about
its parts add up.
-/

namespace LittleScript

open Run

namespace Rule

def Yields {α : Type} (rule : Rule α) (s : State) (good : α → State → Prop) : Prop :=
  ∀ a t, rule.run s = (some a, t) → good a t

namespace Yields
variable {α β : Type} {rule : Rule α} {follow : α → Rule β} {s t : State} {good better : α → State → Prop}
  {goal : β → State → Prop}

theorem of_run {other : Rule α} (h : Yields other t good) (run : rule.run s = other.run t) :
    Yields rule s good := fun a u built => h a u (run.symm.trans built)

private theorem any (rule : Rule α) (s : State) : Yields rule s fun _ _ => True := fun _ _ _ => trivial

/-- Whatever is built, the state behind it is a later one. -/
protected theorem leads (rule : Rule α) (s : State) : Yields rule s fun _ t => s.Leads t :=
  fun _ _ run => leads_of_run run

protected theorem and (h : Yields rule s good) (h' : Yields rule s better) :
    Yields rule s fun a t => good a t ∧ better a t := fun a t run => ⟨h a t run, h' a t run⟩

theorem weaken (h : Yields rule s better) (weaker : ∀ a t, better a t → good a t) : Yields rule s good :=
  fun a t run => weaker a t (h a t run)

theorem of_none (run : rule.run s = (none, t)) : Yields rule s good := by
  intro a u built
  rw [run] at built
  cases built

protected theorem pure {a : α} (h : good a s) : Yields (pure a : Rule α) s good := by
  intro b t run
  obtain ⟨rfl, rfl⟩ : a = b ∧ s = t := by simpa using run
  exact h

protected theorem bind (first : Yields rule s good) (second : ∀ a t, good a t → Yields (follow a) t goal) :
    Yields (rule >>= follow) s goal := by
  intro b u run
  obtain ⟨a, t, run, run'⟩ := parts_of_run_bind run
  exact second a t (first a t run) b u run'

/-- Nothing has to be known of the first part. -/
theorem behind (second : ∀ a t, Yields (follow a) t goal) : Yields (rule >>= follow) s goal :=
  (any rule s).bind fun a t _ => second a t

protected theorem andReturnLevels {P : α → Prop} (h : Yields rule s fun a _ => P a) (count : Nat) :
    Yields (rule.andReturnLevels count) s fun a _ => P a := by
  intro a t run
  rw [run_andReturnLevels] at run
  have value : (rule.run s).1 = some a := congrArg Prod.fst run
  exact h a (rule.run s).2 (Prod.ext value rfl)

section
variable {item : Rule α} {P : α → Prop} {found : List α}

/-- Items that are good one by one, whatever was found before. -/
private theorem items (each : ∀ t, s.Leads t → Yields item t fun a _ => P a) (before : ∀ a ∈ found, P a) :
    Yields (items item found) s fun all _ => ∀ a ∈ all, P a := by
  intro all u run
  change itemsFrom item found s = _ at run
  fun_induction itemsFrom item found s with
  | case1 => cases run
  | case2 found s comma a t built ih =>
    have moved : s.Leads s.advance := .advance s
    have behind : s.Leads t := moved.trans (leads_of_run built)
    refine ih (fun u led => each u (behind.trans led)) (fun b mem => ?_) run
    rcases List.mem_cons.1 mem with rfl | mem
    · exact each _ moved b t built
    · exact before b mem
  | case3 found s other =>
    obtain ⟨same, -⟩ := Prod.mk.inj run
    obtain rfl := Option.some.inj same
    exact fun a mem => before a (List.mem_reverse.1 mem)

theorem listed (each : ∀ t, s.Leads t → Yields item t fun a _ => P a) :
    Yields (listed item) s fun all _ => ∀ a ∈ all, P a := by
  refine (Yields.leads _ s).bind fun token t led => ?_
  split
  · exact behind fun _ _ => .pure fun _ none => absurd none List.not_mem_nil
  · refine ((each t led).and (Yields.leads item t)).bind fun first u good => ?_
    have later : ∀ v, u.Leads v → Yields item v fun a _ => P a :=
      fun v further => each v ((led.trans good.2).trans further)
    have first_good : ∀ a ∈ [first], P a := fun a mem => List.mem_singleton.1 mem ▸ good.1
    exact (items later first_good).bind fun all u holds => behind fun _ _ => .pure holds

theorem sequenceFrom (each : ∀ t, s.Leads t → Yields item t fun a _ => P a) (stops : Kind → Bool)
    (before : ∀ a ∈ found, P a) : ∀ a ∈ (sequenceFrom item stops found s).1, P a := by
  fun_induction Rule.sequenceFrom item stops found s with
  | case1 => exact fun a mem => before a (List.mem_reverse.1 mem)
  | case2 => exact fun a mem => before a (List.mem_reverse.1 mem)
  | case3 found s proper goes ih =>
    have behind : s.Leads (item.run s).2.advance := (item.leads s).trans (.advance _)
    apply ih fun u led => each u (behind.trans led)
    intro a mem
    rcases List.mem_append.1 mem with built | mem
    · exact each s (.refl s) a _ (Prod.ext (Option.mem_toList.1 built) rfl)
    · exact before a mem

theorem sequence (each : ∀ t, s.Leads t → Yields item t fun a _ => P a) (stops : Kind → Bool) :
    Yields (sequence item stops) s fun all _ => ∀ a ∈ all, P a := by
  intro all t run
  have same : (Rule.sequenceFrom item stops [] s).1 = all := Option.some.inj (congrArg Prod.fst run)
  rw [← same]
  exact sequenceFrom each stops fun _ none => absurd none List.not_mem_nil

end

end Yields
end Rule

def Chain.Yields (chain : Chain) (s : State) (good : Expression → State → Prop) : Prop :=
  ∀ tree held t, chain.run s = (some tree, held, t) → good tree t

namespace Chain.Yields
variable {α : Type} {chain : Chain} {s t : State} {held : Nat} {good better : Expression → State → Prop}

theorem of_run {other : Chain} (h : other.Yields t good) (run : chain.run s = other.run t) :
    chain.Yields s good := fun tree held u built => h tree held u (run.symm.trans built)

theorem of_none (run : chain.run s = (none, held, t)) : chain.Yields s good := by
  intro tree count u built
  rw [run] at built
  cases built

theorem andThen {rule : Rule α} {first : α → State → Prop} {follow : α → Chain} (h : rule.Yields s first)
    (second : ∀ a t, first a t → (follow a).Yields t good) : (Chain.andThen rule held follow).Yields s good := by
  intro tree count u run
  rw [run_andThen] at run
  cases built : rule.run s with
  | mk value t =>
    rw [built] at run
    cases value with
    | none => cases run
    | some a => exact second a t (h a t built) tree count u run

/-- The levels of a chain are closed behind it. -/
theorem close (h : chain.Yields s good)
    (closed : ∀ tree t count, good tree t → better tree (t.returnLevels count)) :
    chain.close.Yields s better := by
  intro tree t run
  rw [run_close] at run
  have value : (chain.run s).1 = some tree := congrArg Prod.fst run
  have place : (chain.run s).2.2.returnLevels (chain.run s).2.1 = t := congrArg Prod.snd run
  rw [← place]
  exact closed tree _ _ (h tree (chain.run s).2.1 (chain.run s).2.2 (Prod.ext value rfl))

/-- Where no link follows, a chain ends with what it started from. -/
theorem unlinked {limit levels : Nat} {precedence : Precedence} {left : Expression}
    (ends : linkAbove? precedence s.peek.kind = none) (h : good left s) :
    (Rule.links limit levels precedence left held).Yields s good := by
  intro tree count t run
  rw [Rule.run_links_unlinked ends] at run
  obtain ⟨rfl, -, rfl⟩ : left = tree ∧ held = count ∧ s = t := by simpa using run
  exact h

end Chain.Yields
end LittleScript

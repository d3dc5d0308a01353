import LittleScript.Proofs.Rule.Reading
import LittleScript.Proofs.Run.Cut

/-!
Rules in a run that is cut off, beside the same rules in the whole run, which reports nothing. Either both
do the same, or the first run comes to its end. Rules that are put together add up what is left of them.
-/

namespace LittleScript.Rule

open Run

structure Spends (able : Prop) {α : Type} (rule : Rule α) (s : State) : Prop where
  spent : s.Spent (rule.run s).2
  value : (rule.run s).1.isSome = true → able

namespace Spends
variable {able able' : Prop} {α β : Type} {rule : Rule α} {follow : α → Rule β} {s : State}

protected theorem pure (ended : s.ahead = []) (a : α) : Spends True (pure a : Rule α) s :=
  ⟨State.spent_refl ended, fun _ => trivial⟩

protected theorem refuse (ended : s.ahead = []) (cause : Cause) {location : Location}
    (place : location = s.finish) : Spends able (refuse cause location : Rule α) s :=
  ⟨State.spent_diagnosed ended place, fun built => by cases built⟩

protected theorem bind (first : Spends able rule s)
    (second : able → ∀ a t, t.ahead = [] → Spends able' (follow a) t) :
    Spends able' (rule >>= follow) s := by
  have spent := first.spent
  have value := first.value
  cases run : rule.run s with
  | mk built t =>
    rw [run] at spent value
    cases built with
    | none =>
      have whole : (rule >>= follow).run s = (none, t) := by rw [run_bind, run, next_none]
      refine ⟨?_, ?_⟩
      · rw [whole]
        exact spent
      · rw [whole]
        exact fun built => by cases built
    | some a =>
      have whole : (rule >>= follow).run s = (follow a).run t := by rw [run_bind, run, next_some]
      have rest := second (value rfl) a t spent.ahead
      refine ⟨?_, ?_⟩
      · rw [whole]
        exact spent.trans rest.spent
      · rw [whole]
        exact rest.value

/-- A token that has to follow does not. -/
theorem expected {follow : Token → Rule β} {kind : Kind} (ended : s.ahead = [])
    (proper : kind ≠ .endOfInput) : Spends False (expect kind >>= follow) s := by
  have other : s.peek.kind ≠ kind := by
    rw [State.peek_kind_of_ended ended]
    exact proper.symm
  have place : s.peek.location = s.finish := by
    rw [State.peek_of_ahead_nil ended]
    rfl
  have refused : Spends False (refuse (.unexpected kind s.peek.kind) s.peek.location : Rule Token) s :=
    .refuse ended _ place
  have first : Spends False (expect kind) s := by
    have run : (expect kind).run s = _ := (run_expect kind s).trans (if_neg other)
    refine ⟨?_, ?_⟩
    · rw [run]
      exact refused.spent
    · rw [run]
      exact fun built => by cases built
  exact first.bind fun impossible => impossible.elim

private theorem peek {follow : Token → Rule β} (second : Spends able (follow s.peek) s) :
    Spends able (Rule.peek >>= follow) s := ⟨second.spent, second.value⟩

theorem advance {follow : Unit → Rule β} (ended : s.ahead = [])
    (second : Spends able (follow ()) s.advance) : Spends able (Rule.advance >>= follow) s :=
  ⟨(State.spent_advance ended).trans second.spent, second.value⟩

/-- A list stops where no comma follows. -/
private theorem items {item : Rule α} (ended : s.ahead = []) (found : List α) :
    Spends True (items item found) s := by
  refine ⟨?_, fun _ => trivial⟩
  rw [run_items_done (by rw [State.peek_kind_of_ended ended]; decide)]
  exact State.spent_refl ended

/-- A list in parentheses is not closed. -/
private theorem listed {item : Rule α} (ended : s.ahead = []) (each : Spends False item s) :
    Spends False (listed item) s := by
  have other : s.peek.kind ≠ .rightParen := by
    rw [State.peek_kind_of_ended ended]
    decide
  apply peek
  rw [if_neg other]
  exact each.bind fun impossible => impossible.elim

end Spends

/-- What may be built of a value that is cut off, whatever the whole run builds. -/
abbrev Loose {α : Type} (_ : α) (_ : Option α) : Prop := True

abbrev Firm {α : Type} (_ : α) (_ : Option α) : Prop := False

/-- The run from `s` is cut off in front of the tokens `more`, the one from `t` is not. If the second one
reports nothing, either both build the same and the first one is still in front of its end, or the first
one comes to its end with nothing, or with a `stump` of what the second one builds. -/
def Cut (more : List Token) {α : Type} (stump : α → Option α → Prop) (rule : Rule α) (s t : State) : Prop :=
  t.Silent (rule.run t).2 →
    ((rule.run s).1 = (rule.run t).1 ∧ (rule.run s).2.Cuts more (rule.run t).2 ∧
        s.Silent (rule.run s).2) ∨
      (s.Spent (rule.run s).2 ∧ ∀ a, (rule.run s).1 = some a → stump a (rule.run t).1)

namespace Cut
variable {more : List Token} {able : Prop} {α β : Type} {rule : Rule α} {follow : α → Rule β}
  {stump : α → Option α → Prop} {stump' : β → Option β → Prop} {s t u v : State}

/-- Both runs have come to where another rule goes on, and the first one has reported nothing. -/
theorem step {other : Rule α} (h : Cut more stump other u v) (first : rule.run s = other.run u)
    (second : rule.run t = other.run v) (led : s.Leads u) (silent : s.Silent u) (silent' : t.Silent v) :
    Cut more stump rule s t := by
  intro whole
  rw [second] at whole
  rw [first, second]
  rcases h (Eq.trans whole (Eq.symm silent')) with ⟨same, cuts, behind⟩ | ⟨spent, built⟩
  · exact .inl ⟨same, cuts, Eq.trans behind silent⟩
  · exact .inr ⟨spent.after led silent, built⟩

theorem of_run_eq {other : Rule α} (h : Cut more stump other s t) (first : rule.run s = other.run s)
    (second : rule.run t = other.run t) : Cut more stump rule s t :=
  h.step first second (.refl s) rfl rfl

/-- The first run comes to its end whatever the second one does. -/
private theorem of_spends (h : Spends able rule s) (fits : able → ∀ a o, stump a o) :
    Cut more stump rule s t :=
  fun _ => .inr ⟨h.spent, fun a eq => fits (h.value (by rw [eq]; rfl)) a _⟩

protected theorem pure (h : s.Cuts more t) (a : α) : Cut more stump (pure a : Rule α) s t :=
  fun _ => .inl ⟨rfl, h, rfl⟩

protected theorem skip (h : s.Cuts more t) : Cut more stump (skip : Rule α) s t := fun _ => .inl ⟨rfl, h, rfl⟩

/-- The second run would report something. -/
protected theorem refuse (cause : Cause) (location : Location) :
    Cut more stump (refuse cause location : Rule α) s t :=
  fun silent => absurd silent (t.not_silent_diagnosed _)

/-- One rule after the other. What is cut off in the first one may still be gone on from. -/
theorem bind_stump (first : Cut more stump rule s t)
    (second : ∀ a s' t', rule.run s = (some a, s') → s'.Cuts more t' → Cut more stump' (follow a) s' t')
    (late : ∀ a o s' t', s'.ahead = [] → stump a o → s'.Spent ((follow a).run s').2 ∧
      ∀ b, ((follow a).run s').1 = some b → stump' b (next follow (o, t')).1) :
    Cut more stump' (rule >>= follow) s t := by
  intro silent
  obtain ⟨before, behind⟩ := silent.split (rule.leads t) (leads_next rule follow t)
  have outcome := first before
  have led := rule.leads s
  rw [run_bind] at behind
  rw [run_bind, run_bind]
  cases run : rule.run s with
  | mk built s' =>
    cases run' : rule.run t with
    | mk built' t' =>
      rw [run, run'] at outcome
      rw [run] at led
      rw [run'] at behind
      rcases outcome with ⟨same, cuts, quiet⟩ | ⟨spent, cropped⟩
      · obtain rfl : built = built' := same
        cases built with
        | none => exact .inl ⟨rfl, cuts, quiet⟩
        | some a =>
          rcases second a s' t' run cuts behind with ⟨same, cuts, quiet'⟩ | ⟨spent, cropped⟩
          · exact .inl ⟨same, cuts, Eq.trans quiet' quiet⟩
          · exact .inr ⟨spent.after led quiet, cropped⟩
      · cases built with
        | none => exact .inr ⟨spent, fun b none => by cases none⟩
        | some a =>
          obtain ⟨rest, cropped'⟩ := late a built' s' t' spent.ahead (cropped a rfl)
          exact .inr ⟨spent.trans rest, cropped'⟩

/-- The second rule comes to its end behind whatever is cut off in the first one. -/
theorem bind_spends (first : Cut more stump rule s t)
    (second : ∀ a s' t', rule.run s = (some a, s') → s'.Cuts more t' → Cut more stump' (follow a) s' t')
    (late : ∀ a s', s'.ahead = [] → Spends able (follow a) s') (fits : able → ∀ b o, stump' b o) :
    Cut more stump' (rule >>= follow) s t := by
  apply first.bind_stump second
  intro a o s' t' ended _
  have rest := late a s' ended
  exact ⟨rest.spent, fun b eq => fits (rest.value (by rw [eq]; rfl)) b _⟩

protected theorem bind (first : Cut more stump rule s t)
    (second : ∀ a s' t', s'.Cuts more t' → Cut more stump' (follow a) s' t')
    (late : ∀ a s', s'.ahead = [] → Spends False (follow a) s') : Cut more stump' (rule >>= follow) s t :=
  first.bind_spends (fun a s' t' _ => second a s' t') late False.elim

/-- A first rule of which no stump is left. -/
theorem bind_firm (first : Cut more Firm rule s t)
    (second : ∀ a s' t', s'.Cuts more t' → Cut more stump' (follow a) s' t') :
    Cut more stump' (rule >>= follow) s t :=
  first.bind_stump (fun a s' t' _ => second a s' t') fun _ _ _ _ _ impossible => impossible.elim

theorem current {follow : Token → Rule β} (h : s.Cuts more t)
    (second : Cut more stump' (follow s.current) s t) :
    Cut more stump' (Rule.current >>= follow) s t := by
  apply second.of_run_eq
  · rfl
  · rw [run_bind, run_current, next_some, h.current]

theorem advance {follow : Unit → Rule β} (h : s.Cuts more t)
    (ended : s.advance.tokens = [] → Spends False (follow ()) s.advance)
    (second : s.advance.Cuts more t.advance → Cut more stump' (follow ()) s.advance t.advance) :
    Cut more stump' (Rule.advance >>= follow) s t := by
  by_cases last : s.ahead = []
  · exact of_spends (Spends.advance last (ended last)) False.elim
  · exact (second (h.advance last)).step rfl rfl (.advance s) s.diagnostics_advance t.diagnostics_advance

/-- A token that is expected becomes the current one in both runs. -/
theorem expected {follow : Token → Rule β} {kind : Kind} (h : s.Cuts more t) (proper : kind ≠ .endOfInput)
    (second : s.advance.Cuts more t.advance → Cut more stump' (follow s.peek) s.advance t.advance) :
    Cut more stump' (expect kind >>= follow) s t := by
  by_cases last : s.ahead = []
  · exact of_spends (Spends.expected last proper) False.elim
  · have same := h.peek last
    by_cases there : s.peek.kind = kind
    · apply (second (h.advance last)).step _ _ (.advance s) s.diagnostics_advance t.diagnostics_advance
      · rw [run_bind, run_expect, if_pos there, next_some]
      · rw [run_bind, run_expect, if_pos (by rw [same, there]), next_some, same]
    · intro silent
      rw [run_bind, run_expect, if_neg (by rw [same]; exact there), next_none] at silent
      exact absurd silent (t.not_silent_diagnosed _)

/-- Where the first run sees its end, the second one may see what is behind. -/
theorem peek {follow : Token → Rule β} (h : s.Cuts more t)
    (ended : s.ahead = [] → Cut more stump' (Rule.peek >>= follow) s t)
    (second : s.ahead ≠ [] → Cut more stump' (follow s.peek) s t) :
    Cut more stump' (Rule.peek >>= follow) s t := by
  by_cases last : s.ahead = []
  · exact ended last
  · apply (second last).of_run_eq
    · rfl
    · rw [run_bind, run_peek, next_some, h.peek last]

def Item (more : List Token) (stump : α → Option α → Prop) (item : Rule α) : Prop :=
  ∀ s t, s.Cuts more t → Cut more stump item s t

private theorem items {item : Rule α} (each : Item more stump item) (found : List α) (h : s.Cuts more t) :
    Cut more Loose (items item found) s t := by
  by_cases last : s.ahead = []
  · exact of_spends (Spends.items last found) fun _ _ _ => trivial
  have same := h.peek last
  fun_induction itemsFrom item found s generalizing t with
  | case1 found s comma u failed =>
    have comma' : t.peek.kind = .comma := by rw [same, comma]
    refine .of_run_eq ?_ (run_items_comma comma) (run_items_comma comma')
    apply advance h (fun ended => absurd ended last)
    intro moved
    apply (each _ _ moved).bind_spends _ (fun a s' ended => Spends.items ended _) fun _ _ _ => trivial
    intro a s' t' built _
    rw [failed] at built
    cases built
  | case2 found s comma a u built ih =>
    have comma' : t.peek.kind = .comma := by rw [same, comma]
    refine .of_run_eq ?_ (run_items_comma comma) (run_items_comma comma')
    apply advance h (fun ended => absurd ended last)
    intro moved
    apply (each _ _ moved).bind_spends _ (fun a s' ended => Spends.items ended _) fun _ _ _ => trivial
    intro b s' t' built' cuts
    rw [built] at built'
    cases built'
    by_cases last : u.ahead = []
    · exact of_spends (Spends.items last _) fun _ _ _ => trivial
    · exact ih cuts last (cuts.peek last)
  | case3 found s other =>
    have other' : t.peek.kind ≠ .comma := by
      rw [same]
      exact other
    exact (Cut.pure h found.reverse).of_run_eq (run_items_done other) (run_items_done other')

/-- A list in parentheses that is cut off is not built. -/
theorem listed {item : Rule α} (each : Item more stump item)
    (late : ∀ s : State, s.ahead = [] → Spends False item s) : Item more Firm (listed item) := by
  intro s t h
  apply peek h (fun ended => of_spends (Spends.listed ended (late s ended)) False.elim)
  intro goes
  split
  · apply advance h (fun ended => absurd ended goes)
    intro moved
    exact .pure moved []
  · apply (each s t h).bind
    · intro first s t h
      apply (items each [first] h).bind
      · intro all s t h
        apply expected h (by decide)
        intro moved
        exact .pure moved all
      · exact fun all s ended => Spends.expected ended (by decide)
    · intro first s ended
      exact (Spends.items ended [first]).bind fun _ all u ended => Spends.expected ended (by decide)

end Cut

/-- The first list is the beginning of the second one, except that its last element may be a stump. -/
inductive Cropped {α : Type} (stump : α → Option α → Prop) : List α → List α → Prop where
  | whole {short} (rest : List α) : Cropped stump short (short ++ rest)
  | stump {short last built} (rest : List α) (h : stump last built) :
      Cropped stump (short ++ [last]) (short ++ (built.toList ++ rest))

/-- What an item has built comes behind what was found before it. -/
private theorem reverse_found {α : Type} (built : Option α) (found : List α) :
    (built.toList ++ found).reverse = found.reverse ++ built.toList := by
  cases built with
  | none => exact (List.append_nil _).symm
  | some a => exact List.reverse_cons

/-- The last item of the first list is cut off. -/
private theorem Cropped.of_item {α : Type} {stump : α → Option α → Prop} {built built' : Option α}
    (h : ∀ a, built = some a → stump a built') (found rest : List α) :
    Cropped stump (built.toList ++ found).reverse ((built'.toList ++ found).reverse ++ rest) := by
  rw [reverse_found, reverse_found, List.append_assoc]
  cases built with
  | none =>
    rw [Option.toList_none, List.append_nil]
    exact .whole _
  | some a => exact .stump rest (h a rfl)

section
variable {more : List Token} {α : Type} {item : Rule α} {stump : α → Option α → Prop}
  {stops : Kind → Bool} {s t : State}

/-- What was found earlier stays in front. -/
private theorem sequenceFrom_found (item : Rule α) (stops : Kind → Bool) (found : List α) (s : State) :
    ∃ rest, (sequenceFrom item stops found s).1 = found.reverse ++ rest := by
  fun_induction sequenceFrom item stops found s with
  | case1 found s ended => exact ⟨[], (List.append_nil _).symm⟩
  | case2 found s proper stopped => exact ⟨[], (List.append_nil _).symm⟩
  | case3 found s proper goes ih =>
    obtain ⟨rest, eq⟩ := ih
    rw [reverse_found, List.append_assoc] at eq
    exact ⟨(item.run s).1.toList ++ rest, eq⟩

/-- Either both runs find the same up to a token that stops them, or the first one comes to its end. -/
theorem sequenceFrom_cut (each : Cut.Item more stump item) (found : List α) (h : s.Cuts more t)
    (silent : t.Silent (sequenceFrom item stops found t).2) :
    ((sequenceFrom item stops found s).1 = (sequenceFrom item stops found t).1 ∧
        (sequenceFrom item stops found s).2.Cuts more (sequenceFrom item stops found t).2 ∧
        s.Silent (sequenceFrom item stops found s).2) ∨
      ((sequenceFrom item stops found s).2.tokens = [] ∧ s.Spent (sequenceFrom item stops found s).2 ∧
        Cropped stump (sequenceFrom item stops found s).1 (sequenceFrom item stops found t).1) := by
  fun_induction sequenceFrom item stops found s generalizing t with
  | case1 found s ended => exact absurd ended h.proper
  | case2 found s proper stopped =>
    rw [sequenceFrom_stops (.inr (by rw [h.current, stopped]))]
    exact .inl ⟨rfl, h, rfl⟩
  | case3 found s proper goes ih =>
    have proper' : t.tokens ≠ [] := by
      rw [h.tokens]
      exact List.append_ne_nil_of_left_ne_nil proper more
    have goes' : stops t.current.kind = false := by
      rw [h.current]
      exact Bool.eq_false_iff.2 goes
    rw [sequenceFrom_step proper' goes'] at silent ⊢
    -- A first run that has used its last token finds nothing more.
    have stop : (item.run s).2.ahead = [] → ∀ all,
        sequenceFrom item stops all (item.run s).2.advance = (all.reverse, (item.run s).2.advance) :=
      fun ended all => sequenceFrom_stops (.inl ended)
    have led : (item.run t).2.Leads (item.run t).2.advance := .advance _
    obtain ⟨before, behind⟩ := silent.split ((item.leads t).trans led) (leads_sequenceFrom item stops _ _)
    obtain ⟨rest, eq⟩ := sequenceFrom_found item stops ((item.run t).1.toList ++ found)
      (item.run t).2.advance
    rcases each s t h (before.split (item.leads t) led).1 with ⟨same, cuts, quiet⟩ | ⟨spent, cropped⟩
    · have led : s.Leads (item.run s).2.advance := (item.leads s).trans (.advance _)
      have quiet' : s.Silent (item.run s).2.advance := Eq.trans (State.diagnostics_advance _) quiet
      by_cases last : (item.run s).2.ahead = []
      · rw [stop last, eq, same]
        exact .inr ⟨last, led.spent quiet' (State.ahead_of_tokens_nil last), .whole rest⟩
      · rw [← same] at behind ⊢
        rcases ih (cuts.advance last) behind with ⟨same, cuts, quiet⟩ | ⟨ended, spent, cropped⟩
        · exact .inl ⟨same, cuts, Eq.trans quiet quiet'⟩
        · exact .inr ⟨ended, spent.after led quiet', cropped⟩
    · rw [stop spent.ahead, eq]
      exact .inr ⟨spent.ahead, spent.trans (State.spent_advance spent.ahead), .of_item cropped found rest⟩

end
end LittleScript.Rule

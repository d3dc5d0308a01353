import LittleScript.Proofs.Layout.Parsed
import LittleScript.Proofs.Layout.Writable

/-!
Texts without control characters. Whatever the program prints of a source text is one: quoting escapes control
characters, and what is printed without quotes is made of words, signs and numbers.
-/

namespace LittleScript

/-- The characters of the general category `Cc`. -/
def isControl (c : Char) : Bool := c.toNat < 0x20 || 0x7f ≤ c.toNat && c.toNat < 0xa0

def ControlFree (text : List Char) : Prop := ∀ c ∈ text, isControl c = false

instance (text : List Char) : Decidable (ControlFree text) :=
  List.decidableBAll (fun c => isControl c = false) text

namespace ControlFree
variable {a b : List Char}

theorem append_iff : ControlFree (a ++ b) ↔ ControlFree a ∧ ControlFree b := List.forall_mem_append

theorem joined {a b : String} (first : ControlFree a.toList) (second : ControlFree b.toList) :
    ControlFree (a ++ b).toList := by
  rw [String.toList_append]
  exact append_iff.2 ⟨first, second⟩

theorem flatMap {α : Type} {f : α → List Char} {items : List α} (all : ∀ item ∈ items, ControlFree (f item)) :
    ControlFree (items.flatMap f) := by
  intro c mem
  obtain ⟨item, there, mem⟩ := List.mem_flatMap.1 mem
  exact all item there c mem

theorem not_mem {c : Char} (free : ControlFree a) (control : isControl c = true) : c ∉ a :=
  fun mem => absurd (control.symm.trans (free c mem)) (by decide)

end ControlFree

/-- The characters from the space to the tilde are no control characters. -/
private theorem isControl_of_ascii {c : Char} (low : 0x20 ≤ c.toNat) (high : c.toNat < 0x7f) :
    isControl c = false := by
  simp only [isControl, Bool.or_eq_false_iff, decide_eq_false_iff_not, Bool.and_eq_false_imp, decide_eq_true_iff]
  omega

private theorem isControl_of_isDigit {c : Char} (digit : c.isDigit = true) : isControl c = false := by
  have range := toNat_of_isDigit digit
  exact isControl_of_ascii (by omega) (by omega)

private theorem isControl_of_isLetter {c : Char} (letter : isLetter c = true) : isControl c = false := by
  have range := toNat_of_isLetter letter
  exact isControl_of_ascii (by omega) (by omega)

/-- The digits of a number. -/
theorem exists_digitChar_of_mem_toDigits {base n : Nat} {c : Char} (big : 1 < base)
    (mem : c ∈ Nat.toDigits base n) : ∃ digit < base, c = Nat.digitChar digit := by
  induction n using Nat.strongRecOn with
  | ind n ih =>
    rw [Nat.toDigits_eq_if big] at mem
    split at mem
    · rename_i small
      exact ⟨n, small, List.mem_singleton.1 mem⟩
    · rename_i large
      obtain mem | mem := List.mem_append.1 mem
      · exact ih (n / base) (Nat.div_lt_self (by omega) big) mem
      · exact ⟨n % base, Nat.mod_lt n (by omega), List.mem_singleton.1 mem⟩

theorem isDigit_of_mem_toString {n : Nat} {c : Char} (mem : c ∈ (toString n).toList) : c.isDigit = true := by
  rw [Nat.toString_eq_ofList_toDigits, String.toList_ofList] at mem
  exact Nat.isDigit_of_mem_toDigits (by decide) (by decide) mem

private theorem controlFree_toString (n : Nat) : ControlFree (toString n).toList :=
  fun _ mem => isControl_of_isDigit (isDigit_of_mem_toString mem)

private theorem isControl_of_isShown {c : Char} (shown : Printable.isShown c = true) : isControl c = false := by
  cases control : isControl c with
  | false => rfl
  | true =>
    simp only [isControl, Bool.or_eq_true, Bool.and_eq_true, decide_eq_true_iff] at control
    rw [Printable.isShown_of_control control] at shown
    cases shown

namespace Quoted

private theorem controlFree_encodeChar (c : Char) : ControlFree (encodeChar c) := by
  unfold encodeChar
  split
  case h_7 =>
    split
    · rename_i shown
      exact List.forall_mem_singleton.2 (isControl_of_isShown shown)
    · rw [ControlFree.append_iff, ControlFree.append_iff]
      refine ⟨⟨by decide, fun d mem => ?_⟩, by decide⟩
      obtain ⟨digit, small, rfl⟩ := exists_digitChar_of_mem_toDigits (by decide) mem
      revert small
      exact (by decide : ∀ digit < 16, isControl (Nat.digitChar digit) = false) digit
  all_goals decide

/-- A quoted text has no control characters, whatever the text has. -/
theorem controlFree_quote (text : String) : ControlFree (quote text).toList := by
  rw [quote, String.toList_ofList, List.cons_append, ← List.singleton_append, ControlFree.append_iff,
    ControlFree.append_iff]
  exact ⟨by decide, .flatMap fun c _ => controlFree_encodeChar c, by decide⟩

end Quoted

theorem Kind.controlFree_name (kind : Kind) : ControlFree kind.name.toList := by
  cases kind <;> decide

private theorem Kind.controlFree_symbol (kind : Kind) : ControlFree kind.symbol.toList := by
  cases kind <;> decide

/-- Words, signs and numbers have no control characters. -/
private theorem Lexical.controlFree {kind : Kind} {literal : String} (h : Lexical kind literal) :
    ControlFree literal.toList := by
  cases h with
  | sign => exact kind.controlFree_symbol
  | word _ all =>
    rw [String.toList_ofList]
    exact fun c mem => isControl_of_isLetter (all c mem)
  | number _ all =>
    rw [String.toList_ofList]
    exact fun c mem => isControl_of_isDigit (all c mem)

/-- A layout whose words are spelled like their kinds has no control characters. -/
private theorem Layout.Apart.controlFree {layout : List Piece} {following : List Char}
    (apart : Apart layout following) :
    ControlFree (chars layout) := by
  induction layout with
  | nil => exact fun c mem => absurd mem List.not_mem_nil
  | cons piece rest ih =>
    cases piece with
    | gap =>
      rw [chars_gap]
      exact List.forall_mem_cons.2 ⟨by decide, ih apart⟩
    | word kind literal =>
      obtain ⟨lexical, -, others⟩ := apart
      rw [chars_word, ControlFree.append_iff]
      exact ⟨lexical.controlFree, ih others⟩

/-- The program of any text is rendered without control characters. -/
theorem controlFree_render (text : String) : ControlFree (parse text).program.render.toList :=
  (Layout.apart_program _ (parse_writable text).legible).controlFree

private theorem Location.controlFree_text (here : Location) : ControlFree here.text.toList := by
  rw [text]
  refine .joined (.joined (controlFree_toString _) ?_) (controlFree_toString _)
  decide

private theorem Cause.controlFree_message (cause : Cause) : ControlFree cause.message.toList := by
  cases cause with
  | unexpected expected found =>
    refine .joined (.joined (.joined (.joined ?_ expected.controlFree_symbol) ?_) found.controlFree_symbol) ?_
    all_goals decide +kernel
  | noExpression found =>
    refine .joined (.joined ?_ found.controlFree_symbol) ?_
    all_goals decide +kernel
  | integerTooLarge literal =>
    refine .joined (.joined ?_ (Quoted.controlFree_quote literal)) ?_
    all_goals decide +kernel
  | illegalCharacter literal =>
    refine .joined ?_ (Quoted.controlFree_quote literal)
    decide +kernel
  | unterminatedBlock opened =>
    refine .joined (.joined ?_ opened.controlFree_text) ?_
    all_goals decide +kernel
  | nestingTooDeep limit =>
    refine .joined (.joined ?_ (controlFree_toString limit)) ?_
    all_goals decide +kernel

/-- No report has a control character, whatever literal it quotes. -/
theorem Diagnostic.controlFree_message (diagnostic : Diagnostic) : ControlFree diagnostic.message.toList := by
  refine .joined (.joined (.joined (.joined (.joined ?_ (controlFree_toString _)) ?_) (controlFree_toString _)) ?_)
    diagnostic.cause.controlFree_message
  all_goals decide +kernel

end LittleScript

import LittleScript.Proofs.Layout.Writable
import LittleScript.Proofs.Rule.Accounting.Nested
import LittleScript.Proofs.Rule.Building.Nested
import LittleScript.Proofs.Text.Decimal
import LittleScript.Proofs.Token.Numbers

/-!
Numbers from the text to the tree and back. Digits that stand where an operand is looked for are built into a node
with the number that they denote, however many they are, unless that is too large. Then they are reported, once
and with all their digits.
-/

namespace LittleScript

open Run

namespace Rule
variable {limit levels : Nat} {precedence : Precedence} {s : State} {literal : String}

/-- As an operand, a number is built with exactly its value. If it is too large, it is reported instead. -/
private theorem run_operand_integer (inner : Inner) (found : s.current.spelling = (.integer, literal)) :
    (operand inner).run s =
      if Numeral.positional literal.toList ≤ 2 ^ 63 - 1 then
        (some (.integer s.current (Numeral.positional literal.toList)), s)
      else (none, s.record (.diagnosed ⟨.integerTooLarge literal, s.current.location⟩)) := by
  obtain ⟨number, spelled⟩ := Prod.mk.inj found
  rw [run_operand_of_integer inner number, integer, spelled, Numeral.read?_eq_positional]
  by_cases fits : Numeral.positional literal.toList ≤ 2 ^ 63 - 1
  · rw [if_pos fits, if_pos fits]
    rfl
  · rw [if_neg fits, if_neg fits]
    rfl

/-- A link keeps the nodes of what stands in front of it. -/
private theorem nodes_linked (inner : Inner) (link : Link) (left : Expression) (s : State) :
    Yields (linked inner link left) s fun tree _ => left.nodes ⊆ tree.nodes := by
  refine .behind fun _ t => .behind fun token u => ?_
  cases link with
  | binary operator =>
    refine .behind fun _ v => .behind fun right w => .pure ?_
    exact fun node mem => List.mem_cons_of_mem _ (List.mem_append_left _ mem)
  | call =>
    refine .behind fun arguments v => .pure ?_
    exact fun node mem => List.mem_cons_of_mem _ (List.mem_append_left _ mem)

/-- So does a chain of them, however long it is. -/
private theorem nodes_links (limit levels : Nat) (precedence : Precedence) (left : Expression) (held : Nat)
    (s : State) :
    (links limit levels precedence left held).Yields s fun tree _ => left.nodes ⊆ tree.nodes := by
  -- Each link takes a level, so the rest of the chain has one less.
  induction levels generalizing left held s with
  | zero =>
    cases above : linkAbove? precedence s.peek.kind with
    | none => exact .unlinked above (List.Subset.refl _)
    | some link => exact .of_none (run_links_zero above)
  | succ levels ih =>
    cases above : linkAbove? precedence s.peek.kind with
    | none => exact .unlinked above (List.Subset.refl _)
    | some link =>
      by_cases room : s.depth < limit
      · refine Chain.Yields.of_run ?_ ((run_links_succ above).trans (if_pos room))
        refine Chain.Yields.andThen (nodes_linked _ link left _) fun next t kept => ?_
        intro tree count u run
        exact List.Subset.trans kept (ih next (held + 1) t tree count u run)
      · exact .of_none ((run_links_succ above).trans (if_neg room))

/-- Whatever expression is built from a number on has the node of that number, with exactly its value. -/
private theorem nodes_expression (found : s.current.spelling = (.integer, literal)) :
    Yields (expression limit levels precedence) s fun tree _ =>
      Numeral.positional literal.toList ≤ 2 ^ 63 - 1 ∧
        .expression (.integer s.current (Numeral.positional literal.toList)) ∈ tree.nodes := by
  cases levels with
  | zero => exact .of_none run_expression_zero
  | succ levels =>
    by_cases room : s.depth < limit
    · refine Yields.of_run ?_ (run_expression_succ.trans (if_pos room))
      have first : Yields (operand (within limit levels)) (entered precedence s).takeLevel fun left _ =>
          Numeral.positional literal.toList ≤ 2 ^ 63 - 1 ∧
            left = .integer s.current (Numeral.positional literal.toList) := by
        intro left t run
        have same : (entered precedence s).takeLevel.current.spelling = (.integer, literal) := found
        have exact := run_operand_integer (within limit levels) same
        by_cases fits : Numeral.positional literal.toList ≤ 2 ^ 63 - 1
        · rw [exact, if_pos fits] at run
          exact ⟨fits, (Option.some.inj (congrArg Prod.fst run)).symm⟩
        · rw [exact, if_neg fits] at run
          cases run
      refine Chain.Yields.close (Chain.Yields.andThen first ?_) fun tree _ _ kept => kept
      rintro left t ⟨fits, rfl⟩ tree count u run
      exact ⟨fits, nodes_links _ _ _ _ _ _ tree count u run List.mem_cons_self⟩
    · exact .of_none (run_expression_succ.trans (if_neg room))

end Rule

namespace Parsed

/-- The operands that a run over a text looks for are tokens of the text, each at most once. -/
private theorem operands_sublist (limit : Nat) (text : String) :
    (properTokens (ofStream limit (.ofText text)).journal.operands).Sublist (TokenStream.ofText text).tokens := by
  have visited := (accounts_ofStream limit (.ofText text)).visited
  have moves : properTokens ((State.start (.ofText text) .empty).current ::
      (ofStream limit (.ofText text)).journal.moves) = (TokenStream.ofText text).tokens :=
    (State.visits_finishProgram rfl).trans (properTokens_eq_self (TokenStream.kind_ne_endOfInput text))
  rw [← moves]
  exact (visited.cons _).filter _

/-- A number that is looked for as an operand is reported once if it is too large, and otherwise not at all. -/
private theorem count_overflow (limit : Nat) (text : String) {token : Token} (number : token.kind = .integer)
    (operand : token ∈ (ofStream limit (.ofText text)).journal.operands) :
    (ofStream limit (.ofText text)).diagnostics.count token.overflow = if token.overflows then 1 else 0 := by
  let operands := properTokens (ofStream limit (.ofText text)).journal.operands
  have among : operands.Sublist (TokenStream.ofText text).tokens := operands_sublist limit text
  have looked : token ∈ operands := List.mem_filter.2 ⟨operand, by rw [number]; decide⟩
  have reports : (ofStream limit (.ofText text)).journal.numberReports =
      (operands.filter Token.overflows).map Token.overflow := by
    rw [filter_overflows_properTokens]
    exact (accounts_ofStream limit (.ofText text)).reports
  have heard : (ofStream limit (.ofText text)).diagnostics.count token.overflow =
      ((operands.filter Token.overflows).map Token.overflow).count token.overflow := by
    rw [← reports]
    exact (List.count_filter rfl).symm
  -- Two reports at one place would be about the same token.
  have apart : ∀ a ∈ operands, ∀ b ∈ operands, a.overflow = b.overflow → a = b := fun a first b second same =>
    TokenStream.eq_of_location (List.mem_append_left _ (among.subset first))
      (List.mem_append_left _ (among.subset second)) (congrArg Diagnostic.location same)
  rw [heard]
  by_cases large : token.overflows = true
  · have once : ((operands.filter Token.overflows).map Token.overflow).Nodup :=
      (((TokenStream.nodup_tokens text).sublist among).filter _).map_on fun a first b second =>
        apart a (List.mem_of_mem_filter first) b (List.mem_of_mem_filter second)
    rw [if_pos large]
    exact List.count_eq_one_of_mem once (List.mem_map_of_mem (List.mem_filter.2 ⟨looked, large⟩))
  · rw [if_neg large, List.count_eq_zero]
    intro mem
    obtain ⟨other, found, same⟩ := List.mem_map.1 mem
    obtain ⟨there, other_large⟩ := List.mem_filter.1 found
    exact large (apart other there token looked same ▸ other_large)

/-- In a run without reports each number that is looked for as an operand is one of the program. -/
private theorem mem_nodes_of_silent {limit : Nat} {text : String} {token : Token} {value : Nat}
    (silent : (ofStream limit (.ofText text)).diagnostics = []) (number : token.number? = some (token, (value : Int)))
    (operand : token ∈ (ofStream limit (.ofText text)).journal.operands) :
    .expression (.integer token value) ∈ (ofStream limit (.ofText text)).program.nodes := by
  have among : (token, (value : Int)) ∈ (ofStream limit (.ofText text)).journal.numbers :=
    List.mem_filterMap.2 ⟨token, operand, number⟩
  rw [← numbers_of_silent silent] at among
  exact Node.mem_numbers.1 among

section
variable {limit : Nat} {text literal : String} {token : Token}

/-- What becomes of a number that a run looks for as an operand is decided by its value. -/
private theorem exact_of_operand (operand : token ∈ (ofStream limit (.ofText text)).journal.operands)
    (found : token.spelling = (.integer, literal)) :
    (ofStream limit (.ofText text)).diagnostics.count ⟨.integerTooLarge literal, token.location⟩ =
      (if Numeral.positional literal.toList ≤ 2 ^ 63 - 1 then 0 else 1) ∧
    ((ofStream limit (.ofText text)).diagnostics = [] →
      .expression (.integer token (Numeral.positional literal.toList)) ∈
        (ofStream limit (.ofText text)).program.nodes) := by
  obtain ⟨kind, rfl⟩ := Prod.mk.inj found
  have count := count_overflow limit text kind operand
  have read := Numeral.read?_eq_positional token.literal
  by_cases fits : Numeral.positional token.literal.toList ≤ 2 ^ 63 - 1
  · rw [if_pos fits] at read ⊢
    have unheard : token.overflows = false := by rw [Token.overflows, read, Option.isNone_some, Bool.and_false]
    have itself : token.number? = some (token, (Numeral.positional token.literal.toList : Int)) := by
      rw [Token.number?, if_pos kind, read, Option.map_some]
    rw [unheard, if_neg Bool.false_ne_true] at count
    exact ⟨count, fun silent => mem_nodes_of_silent silent itself operand⟩
  · rw [if_neg fits] at read ⊢
    have heard : token.overflows = true := by rw [Token.overflows, kind, read]; rfl
    rw [heard, if_pos rfl] at count
    refine ⟨count, fun silent => absurd silent ?_⟩
    exact List.ne_nil_of_mem (List.count_pos_iff.1 (count ▸ Nat.one_pos))

/-- No number of a program is too large or has another value than its literal. -/
private theorem exact_of_node {value : Int}
    (mem : .expression (.integer token value) ∈ (ofStream limit (.ofText text)).program.nodes) :
    Numeral.positional token.literal.toList ≤ 2 ^ 63 - 1 ∧ value = Numeral.positional token.literal.toList := by
  have denotes : token.Denotes value := Statement.allNodes_wellFormed (wellFormed_ofStream limit text) _ mem
  obtain ⟨-, -, -, denoted, fits⟩ := denotes
  rw [Numeral.value_eq_positional] at denoted fits
  exact ⟨fits, denoted⟩

end
end Parsed

/-- A number is printed as its own digits, without zeros in front. -/
private theorem Layout.text_integer (token : Token) {digits : List Char} (all : ∀ c ∈ digits, c.isDigit = true) :
    text (expression (.integer token (Numeral.positional digits))) = String.ofList (Numeral.withoutZeros digits) := by
  rw [← Numeral.toString_positional all]
  rfl

/-- Decimal numbers are exact, however many digits they have. In any text, digits that have no others beside them
are one token. Where it is looked for as an operand, its node has the number that the digits denote by their
positions, if that is less than `2 ^ 63`, and so has every expression that is built from there on. Otherwise nothing
is built, and the literal is reported, once in a whole run. What is written for the node are the digits without
zeros in front. They are one token again, which is read back as the same number. -/
theorem numerals_exact {literal : String} (proper : literal ≠ "")
    (digits : ∀ c ∈ literal.toList, c.isDigit = true) :
    let number := Numeral.positional literal.toList
    let numeral := String.ofList (Numeral.withoutZeros literal.toList)
    (∀ front back : String, Stopped Char.isDigit front.toList → Kind.integer.Free back.toList →
      let here := Location.start.after front.toList
      (TokenStream.ofText (front ++ literal ++ back)).tokens =
        (TokenStream.ofText front).tokens ++ ⟨.integer, literal, here⟩ ::
          (TokenStream.ofLexer ⟨back.toList, here.after literal.toList, false⟩).tokens) ∧
    (∀ (inner : Inner) (s : State), s.current.spelling = (.integer, literal) →
      (Rule.operand inner).run s =
        if number ≤ 2 ^ 63 - 1 then (some (.integer s.current number), s)
        else (none, s.record (.diagnosed ⟨.integerTooLarge literal, s.current.location⟩))) ∧
    (∀ (limit levels : Nat) (precedence : Precedence) (s : State), s.current.spelling = (.integer, literal) →
      (Rule.expression limit levels precedence).Yields s fun tree _ =>
        number ≤ 2 ^ 63 - 1 ∧ .expression (.integer s.current number) ∈ tree.nodes) ∧
    (∀ text, ∀ token ∈ (parse text).journal.operands, token.spelling = (.integer, literal) →
      (parse text).diagnostics.count ⟨.integerTooLarge literal, token.location⟩ =
        (if number ≤ 2 ^ 63 - 1 then 0 else 1) ∧
      ((parse text).diagnostics = [] → .expression (.integer token number) ∈ (parse text).program.nodes)) ∧
    (∀ (text : String) (token : Token) (value : Int), token.literal = literal →
      .expression (.integer token value) ∈ (parse text).program.nodes → number ≤ 2 ^ 63 - 1 ∧ value = number) ∧
    (∀ token, Layout.text (Layout.expression (.integer token number)) = numeral) ∧
    (TokenStream.ofText numeral).tokens = [⟨.integer, numeral, .start⟩] ∧
    (number ≤ 2 ^ 63 - 1 → ∀ (inner : Inner) (s : State), s.current.spelling = (.integer, numeral) →
      (Rule.operand inner).run s = (some (.integer s.current number), s)) := by
  intro number numeral
  have lexical : Lexical .integer literal := by
    rw [← String.ofList_toList (s := literal)]
    exact .number (by simpa using proper) digits
  have printed : Lexical .integer numeral := by
    have own := Layout.lexical_number number
    rwa [Numeral.toString_positional digits] at own
  refine ⟨fun front back apart behind => TokenStream.tokens_number lexical apart behind,
    fun inner s found => Rule.run_operand_integer inner found,
    fun limit levels precedence s found => Rule.nodes_expression found,
    fun text token operand found => Parsed.exact_of_operand operand found, ?_,
    fun token => Layout.text_integer token digits, TokenStream.tokens_number_alone printed, ?_⟩
  · rintro text token value rfl mem
    exact Parsed.exact_of_node mem
  · intro fits inner s found
    have same : Numeral.positional numeral.toList = number := by
      rw [String.toList_ofList, Numeral.positional_withoutZeros digits]
    rw [Rule.run_operand_integer inner found, same, if_pos fits]

/-- The largest number with zeros in front, which is written without them and read again, and the next one behind a
sign. -/
theorem numerals_exact_largest :
    let largest : Token := ⟨.integer, "0009223372036854775807", ⟨1, 5⟩⟩
    let copy : Token := ⟨.integer, "9223372036854775807", ⟨1, 1⟩⟩
    largest ∈ (TokenStream.ofText "x = 0009223372036854775807;").tokens ∧
    (parse "x = 0009223372036854775807;").diagnostics = [] ∧
    .expression (.integer largest 9223372036854775807) ∈ (parse "x = 0009223372036854775807;").program.nodes ∧
    Layout.text (Layout.expression (.integer largest 9223372036854775807)) = "9223372036854775807" ∧
    (TokenStream.ofText "9223372036854775807").tokens = [copy] ∧
    (∀ inner, ((Rule.operand inner).run (State.start (.ofText "9223372036854775807") .empty)).1 =
      some (.integer copy 9223372036854775807)) ∧
    (parse "x = -9223372036854775808;").diagnostics.count ⟨.integerTooLarge "9223372036854775808", ⟨1, 6⟩⟩ = 1 ∧
    ∀ token value, .expression (.integer token value) ∈ (parse "x = -9223372036854775808;").program.nodes →
      token.literal ≠ "9223372036854775808" := by
  intro largest copy
  obtain ⟨lexed, -, -, run, -, printed, alone, back⟩ :=
    @numerals_exact "0009223372036854775807" (by decide) (List.all_eq_true.1 (by decide))
  obtain ⟨-, -, -, run', nodes', -⟩ :=
    @numerals_exact "9223372036854775808" (by decide) (List.all_eq_true.1 (by decide))
  have value : Numeral.positional "0009223372036854775807".toList = 9223372036854775807 := by decide +kernel
  have digits : Numeral.withoutZeros "0009223372036854775807".toList = "9223372036854775807".toList := by
    decide +kernel
  have next : ¬ Numeral.positional "9223372036854775808".toList ≤ 2 ^ 63 - 1 := by decide +kernel
  have silent : (parse "x = 0009223372036854775807;").diagnostics = [] := by decide +kernel
  rw [value] at run printed back
  rw [digits, String.ofList_toList] at printed alone back
  refine ⟨?_, silent, ?_, printed largest, alone, fun inner => ?_, ?_, ?_⟩
  · have apart : Stopped Char.isDigit "x = ".toList := by
      intro c last
      obtain rfl : ' ' = c := Option.some.inj last
      rfl
    have behind : Kind.integer.Free ";".toList := by
      intro c first
      obtain rfl : ';' = c := Option.some.inj first
      rfl
    have tokens := lexed "x = " ";" apart behind
    have text : "x = " ++ "0009223372036854775807" ++ ";" = "x = 0009223372036854775807;" := by decide +kernel
    have here : Location.start.after "x = ".toList = ⟨1, 5⟩ := by decide +kernel
    rw [text, here] at tokens
    exact tokens ▸ List.mem_append_right _ List.mem_cons_self
  · exact (run _ largest (by decide +kernel) rfl).2 silent
  · have stands : (State.start (.ofText "9223372036854775807") .empty).current = copy := by decide +kernel
    rw [back (by decide) inner _ (by rw [stands]; rfl), stands]
    rfl
  · exact (run' _ ⟨.integer, "9223372036854775808", ⟨1, 6⟩⟩ (by decide +kernel) rfl).1.trans (if_neg next)
  · intro token value mem same
    exact next (nodes' _ token value same mem).1

end LittleScript

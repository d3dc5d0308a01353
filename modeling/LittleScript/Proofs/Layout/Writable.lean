import LittleScript.Proofs.Layout.Reading
import LittleScript.Proofs.Syntax.Node

/-!
In the layout of a legible tree no word runs into the next one, however large its numbers are.
-/

namespace LittleScript

namespace Layout

def Bounded (following : List Char) : Prop :=
  ∀ c ∈ following.head?, isLetter c = false ∧ c.isDigit = false

section
variable {kind : Kind} {following : List Char}

/-- Words and numbers are free of what bounds them. -/
theorem free_of_bounded (operand : kind ∈ Kind.integer :: .identifier :: Kind.keywords)
    (bounded : Bounded following) : kind.Free following := by
  intro c mem
  obtain ⟨letter, digit⟩ := bounded c mem
  rw [Kind.continuedBy]
  split
  · exact letter
  · split
    · exact digit
    · rename_i word number
      obtain rfl | other := List.mem_cons.1 operand
      · exact absurd rfl number
      · exact absurd other word

/-- Most signs are free of everything. -/
private theorem free_sign (alone : kind ∈ Kind.signs) (single : kind ≠ .assign ∧ kind ≠ .bang) :
    kind.Free following := by
  intro c _
  rw [Kind.continuedBy]
  revert alone single
  cases kind <;> simp [Kind.signs, Kind.keywords]

theorem lexical_number (n : Nat) : Lexical .integer (toString n) := by
  rw [Nat.toString_eq_ofList_toDigits]
  apply Lexical.number Nat.toDigits_ne_nil
  intro c mem
  exact Nat.isDigit_of_mem_toDigits (by decide) (by decide) mem

end

def Alone (kind : Kind) : Prop := kind ∈ Kind.signs ∧ kind ≠ .assign ∧ kind ≠ .bang

instance (kind : Kind) : Decidable (Alone kind) := inferInstanceAs (Decidable (_ ∧ _))

section
variable {kind : Kind} {rest : List Piece} {following : List Char}

theorem apart_sign (alone : Alone kind) :
    Apart (.sign kind :: rest) following ↔ Apart rest following := by
  constructor
  · exact fun h => h.2.2
  · exact fun h => ⟨Lexical.sign alone.1, free_sign alone.1 alone.2, h⟩

theorem apart_gap : Apart (.gap :: rest) following ↔ Apart rest following := Iff.rfl

theorem bounded_gap : Bounded (chars (.gap :: rest) ++ following) := by
  intro c mem
  rw [chars_gap] at mem
  cases mem
  decide

/-- A sign does not begin like a word or a number. -/
theorem bounded_sign (fixed : kind ∈ Kind.signs) : Bounded (chars (.sign kind :: rest) ++ following) := by
  have start : ∃ c others, kind.symbol.toList = c :: others ∧ isLetter c = false ∧ c.isDigit = false := by
    cases kind
    all_goals first
      | exact ⟨_, _, rfl, by decide, by decide⟩
      | exact absurd fixed (by decide)
  obtain ⟨c, others, spelled, letter, digit⟩ := start
  intro d mem
  rw [Piece.sign, chars_word, spelled] at mem
  cases mem
  exact ⟨letter, digit⟩

end

private def Begins (layout : List Piece) : Prop := ∃ c rest, chars layout = c :: rest ∧ c ≠ '='

private theorem Begins.append {a : List Piece} (h : Begins a) (b : List Piece) : Begins (a ++ b) := by
  obtain ⟨c, rest, spelled, proper⟩ := h
  refine ⟨c, rest ++ chars b, ?_, proper⟩
  rw [chars_append, spelled, List.cons_append]

private theorem begins_word {kind : Kind} {literal : String} (lexical : Lexical kind literal)
    (other : kind ∉ [Kind.assign, .equal]) (rest : List Piece) : Begins (.word kind literal :: rest) := by
  obtain ⟨c, others, spelled, -, first⟩ := lexical.first
  refine ⟨c, others ++ chars rest, ?_, ?_⟩
  · rw [chars_word, spelled, List.cons_append]
  · rintro rfl
    have made := Lexeme.first_equals_sign (others ++ [])
    rw [first [] fun _ none => by cases none] at made
    exact other made

private theorem lexical_plain {token : Token} {kind : Kind} (h : token.Plain kind)
    (reserved : kind ∈ Kind.keywords) : Lexical token.kind token.literal := by
  obtain ⟨rfl, spelled⟩ := Prod.mk.inj h
  rw [spelled]
  exact Lexical.keyword reserved

private theorem lexical_value {value : Int} (h : 0 ≤ value) : Lexical .integer (toString value) := by
  obtain ⟨n, rfl⟩ := Int.eq_ofNat_of_zero_le h
  exact lexical_number n

private theorem expression_begins : (e : Expression) → AllLegible e.nodes → Begins (expression e)
  | .name _, h => begins_word (Name.writable_iff.1 (legible_first h)) (by decide) _
  | .integer _ _, h => begins_word (lexical_value (legible_first h)) (by decide) _
  | .boolean _ true, _ => begins_word (Lexical.keyword (by decide)) (by decide) _
  | .boolean _ false, _ => begins_word (Lexical.keyword (by decide)) (by decide) _
  | .unary .., _ => (Begins.append (begins_word (Lexical.sign (by decide)) (by decide) _) _).append _
  | .binary .., _ =>
    (((begins_word (Lexical.sign (by decide)) (by decide) _).append _).append _ |>.append _).append _
  | .call _ callee _, h =>
    have ⟨first, _⟩ := List.forall_mem_append.1 (List.forall_mem_cons.1 h).2
    (((expression_begins callee first).append _).append _).append _
  | .function token _ _, h => by
    have plain : token.Plain .fnWord := (List.forall_mem_cons.1 h).1
    have kind : token.kind = .fnWord := congrArg Prod.fst plain
    have word := begins_word (lexical_plain plain (by decide)) (by rw [kind]; decide) [.sign .leftParen]
    exact ((word.append _).append _).append _

section
variable {following : List Char}

private theorem apart_keyword {token : Token} {kind : Kind} {rest : List Piece} (h : token.Plain kind)
    (reserved : kind ∈ Kind.keywords) (bounded : Bounded (chars rest ++ following))
    (others : Apart rest following) : Apart (.spelled token :: rest) following := by
  refine ⟨lexical_plain h reserved, free_of_bounded ?_ bounded, others⟩
  have same : token.kind = kind := congrArg Prod.fst h
  rw [same]
  exact List.mem_cons_of_mem _ (List.mem_cons_of_mem _ reserved)

private theorem apart_named {name : Name} {rest : List Piece} (h : name.Writable)
    (bounded : Bounded (chars rest ++ following)) (others : Apart rest following) :
    Apart (.named name :: rest) following :=
  ⟨Name.writable_iff.1 h, free_of_bounded (by decide) bounded, others⟩

/-- An assignment sign between gaps. -/
private theorem apart_assign {rest : List Piece} (others : Apart rest following) :
    Apart (.gap :: .sign .assign :: .gap :: rest) following := by
  refine ⟨Lexical.sign (by decide), ?_, others⟩
  rw [chars_gap]
  intro c mem
  cases mem
  decide

/-- Items with commas between them, in front of a closing parenthesis. -/
private theorem apart_separated {items : List (List Piece)}
    (h : ∀ item ∈ items, ∀ following, Bounded following → Apart item following)
    (bounded : Bounded following) : Apart (separated items) following := by
  induction items with
  | nil => trivial
  | cons item items ih =>
    have own := h item List.mem_cons_self
    have others := ih fun other mem => h other (List.mem_cons_of_mem item mem)
    cases items with
    | nil => exact own following bounded
    | cons next items =>
      rw [separated, List.append_assoc, apart_append]
      · refine ⟨own _ ?_, (apart_sign (by decide)).2 others⟩
        exact bounded_sign (by decide)
      · exact List.cons_ne_nil _ _

private theorem apart_functionHead {token : Token} {parameters : List Name} (word : token.Plain .fnWord)
    (names : ∀ name ∈ parameters, name.Writable) : Apart (functionHead token parameters) following := by
  simp only [functionHead, List.cons_append, List.nil_append]
  apply apart_keyword word (by decide) (bounded_sign (by decide))
  rw [apart_sign (by decide), apart_append]
  refine ⟨?_, (apart_sign (by decide)).2 trivial⟩
  apply apart_separated _ (bounded_sign (by decide))
  intro item mem following bounded
  obtain ⟨name, inside, rfl⟩ := List.mem_map.1 mem
  exact apart_named (names name inside) bounded trivial

/-- A unary operator in front of an operand. -/
private theorem apart_unary {operator : UnaryOperator} {operand : List Piece} (begins : Begins operand)
    (own : Apart operand following) : Apart (.sign operator.kind :: operand) following := by
  cases operator with
  | minus => exact (apart_sign (by decide)).2 own
  | bang =>
    obtain ⟨c, rest, spelled, proper⟩ := begins
    refine ⟨Lexical.sign (by decide), ?_, own⟩
    intro d mem
    rw [spelled] at mem
    cases mem
    exact decide_eq_false proper

end

/-- A condition has parentheses, its own or those of the `if`. -/
private theorem apart_condition {guard : Expression} {layout : List Piece} {following : List Char}
    (own : ∀ {following}, Bounded following → Apart layout following) (bounded : Bounded following) :
    Apart (condition guard layout) following := by
  have parens : Apart ([.sign .leftParen] ++ layout ++ [.sign .rightParen]) following := by
    rw [List.append_assoc, List.cons_append, apart_sign (by decide), List.nil_append, apart_append]
    exact ⟨own (bounded_sign (by decide)), (apart_sign (by decide)).2 trivial⟩
  cases guard with
  | unary | binary => exact own bounded
  | _ => exact parens

private theorem apart_last {kind : Kind} {following : List Char} (alone : Alone kind) :
    Apart [.sign kind] following := (apart_sign alone).2 trivial

/-- An item in front of a sign. -/
private theorem apart_before {layout rest : List Piece} {kind : Kind} {following : List Char} (alone : Alone kind)
    (own : ∀ {following}, Bounded following → Apart layout following) (others : Apart rest following) :
    Apart (layout ++ .sign kind :: rest) following :=
  apart_append.2 ⟨own (bounded_sign alone.1), (apart_sign alone).2 others⟩

mutual

private theorem apart_expression : (e : Expression) → AllLegible e.nodes → {following : List Char} →
    Bounded following → Apart (expression e) following
  | .name _, h, _, bounded => apart_named (legible_first h) bounded trivial
  | .integer _ _, h, _, bounded =>
    ⟨lexical_value (legible_first h), free_of_bounded (by decide) bounded, trivial⟩
  | .boolean _ true, _, _, bounded =>
    ⟨Lexical.keyword (by decide), free_of_bounded (by decide) bounded, trivial⟩
  | .boolean _ false, _, _, bounded =>
    ⟨Lexical.keyword (by decide), free_of_bounded (by decide) bounded, trivial⟩
  | .unary _ operator operand, h, _, _ => by
    have inside := (List.forall_mem_cons.1 h).2
    simp only [expression, List.cons_append, List.nil_append]
    rw [apart_sign (by decide)]
    apply apart_unary ((expression_begins operand inside).append _)
    exact apart_before (by decide) (apart_expression operand inside) trivial
  | .binary _ operator left right, h, _, _ => by
    obtain ⟨first, second⟩ := List.forall_mem_append.1 (List.forall_mem_cons.1 h).2
    simp only [expression, List.append_assoc, List.cons_append, List.nil_append]
    rw [apart_sign (by decide), apart_append]
    refine ⟨apart_expression left first bounded_gap, ?_⟩
    have alone : Alone operator.kind := by cases operator <;> decide
    rw [apart_gap, apart_sign alone, apart_gap]
    exact apart_before (by decide) (apart_expression right second) trivial
  | .call _ callee arguments, h, _, _ => by
    obtain ⟨first, all⟩ := List.forall_mem_append.1 (List.forall_mem_cons.1 h).2
    simp only [expression, List.append_assoc, List.cons_append, List.nil_append]
    apply apart_before (by decide) (apart_expression callee first)
    exact apart_before (by decide) (apart_separated (apart_expressions arguments all)) trivial
  | .function _ _ body, h, _, _ => by
    obtain ⟨keyword, parts⟩ := List.forall_mem_cons.1 h
    obtain ⟨names, inside⟩ := List.forall_mem_append.1 parts
    rw [expression, apart_append]
    exact ⟨apart_functionHead keyword (names_legible names), apart_block body inside⟩

private theorem apart_expressions : (es : List Expression) → AllLegible (Expression.allNodes es) →
    ∀ item ∈ expressions es, ∀ following, Bounded following → Apart item following
  | [], _ => fun _ mem => by cases mem
  | e :: es, h => by
    obtain ⟨first, others⟩ := List.forall_mem_append.1 h
    intro item mem following bounded
    rw [expressions] at mem
    obtain rfl | inside := List.mem_cons.1 mem
    · exact apart_expression e first bounded
    · exact apart_expressions es others item inside following bounded

private theorem apart_block : (b : Block) → AllLegible b.nodes → {following : List Char} →
    Apart (block b) following
  | .braced _ body, h, _ => by
    simp only [block, List.cons_append, List.nil_append]
    rw [apart_sign (by decide), apart_gap, apart_append]
    exact ⟨apart_spaced body (List.forall_mem_cons.1 h).2, apart_last (by decide)⟩

private theorem apart_spaced : (body : List Statement) → AllLegible (Statement.allNodes body) →
    {following : List Char} → Apart (spaced body) following
  | [], _, _ => by
    rw [spaced]
    trivial
  | s :: rest, h, _ => by
    obtain ⟨first, others⟩ := List.forall_mem_append.1 h
    rw [spaced, List.append_assoc, apart_append]
    exact ⟨apart_statement s first, apart_spaced rest others⟩

private theorem apart_alternative : (other : Option Block) → AllLegible (Block.anyNodes other) →
    {following : List Char} → Apart (alternative other) following
  | none, _, _ => by
    rw [alternative]
    trivial
  | some other, h, _ => by
    rw [alternative, List.cons_append, List.cons_append]
    refine ⟨Lexical.keyword (by decide), free_of_bounded (by decide) bounded_gap, ?_⟩
    exact apart_block other h

private theorem apart_statement : (s : Statement) → AllLegible s.nodes → {following : List Char} →
    Apart (statement s) following
  | .binding _ name value, h, _ => by
    obtain ⟨keyword, parts⟩ := List.forall_mem_cons.1 h
    obtain ⟨target, right⟩ := List.forall_mem_cons.1 parts
    simp only [statement, List.cons_append, List.nil_append]
    apply apart_keyword keyword (by decide) bounded_gap
    rw [apart_gap]
    apply apart_named target bounded_gap
    apply apart_assign
    exact apart_before (by decide) (apart_expression value right) trivial
  | .answer _ value, h, _ => by
    obtain ⟨keyword, right⟩ := List.forall_mem_cons.1 h
    simp only [statement, List.cons_append, List.nil_append]
    apply apart_keyword keyword (by decide) bounded_gap
    rw [apart_gap]
    exact apart_before (by decide) (apart_expression value right) trivial
  | .assignment _ name value, h, _ => by
    obtain ⟨target, right⟩ := List.forall_mem_cons.1 (List.forall_mem_cons.1 h).2
    simp only [statement, List.cons_append, List.nil_append]
    apply apart_named target bounded_gap
    apply apart_assign
    exact apart_before (by decide) (apart_expression value right) trivial
  | .conditional _ guard consequence other, h, _ => by
    obtain ⟨parts, otherwise⟩ := List.forall_mem_append.1 (List.forall_mem_cons.1 h).2
    obtain ⟨test, first⟩ := List.forall_mem_append.1 parts
    simp only [statement, List.append_assoc, List.cons_append, List.nil_append]
    refine ⟨Lexical.keyword (by decide), free_of_bounded (by decide) bounded_gap, ?_⟩
    rw [apart_gap, apart_append]
    refine ⟨apart_condition (apart_expression guard test) bounded_gap, ?_⟩
    rw [apart_gap, apart_append]
    exact ⟨apart_block consequence first, apart_alternative other otherwise⟩
  | .function _ _ body, h, _ => by
    obtain ⟨keyword, parts⟩ := List.forall_mem_cons.1 h
    obtain ⟨names, inside⟩ := List.forall_mem_append.1 parts
    rw [statement, apart_append]
    exact ⟨apart_functionHead keyword (names_legible names), apart_block body inside⟩

end

/-- No word of a legible program runs into the next one. -/
theorem apart_program (p : Program) (h : p.Legible) : Apart (program p) [] := by
  have legible : AllLegible (Statement.allNodes p) := h
  clear h
  induction p with
  | nil => trivial
  | cons s rest ih =>
    obtain ⟨first, others⟩ := List.forall_mem_append.1 legible
    rw [program, List.flatMap_cons, apart_append]
    exact ⟨apart_statement s first, ih others⟩

end Layout
end LittleScript

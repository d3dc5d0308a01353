import LittleScript.Proofs.Grammar.Clean
import LittleScript.Proofs.Layout.RoundTrip

/-!
What the canonical layout keeps of a text. Apart from parentheses it has the words of the text in their
order, without the semicolons behind function statements and with numbers in their shortest spelling.
-/

namespace LittleScript

def Token.shortest (token : Token) : Kind × String :=
  if token.kind = .integer then (.integer, toString (Numeral.value token.literal.toList))
  else token.spelling

def unparenthesized (spelled : List (Kind × String)) : List (Kind × String) :=
  spelled.filter fun word => word.1 ≠ .leftParen ∧ word.1 ≠ .rightParen

private theorem Token.shortest_of_kind {token : Token} {kind : Kind} (same : token.kind = kind)
    (other : kind ≠ .integer) : token.shortest = token.spelling := by
  rw [shortest, same, if_neg other]

private theorem Token.shortest_of_integer {token : Token} (same : token.kind = .integer) :
    token.shortest = (.integer, toString (Numeral.value token.literal.toList)) := by
  rw [shortest, if_pos same]

/-- Keywords and signs that were read are spelled as in every layout. -/
private theorem Token.Read.shortest {token : Token} {kind : Kind} (read : token.Read) (same : token.kind = kind)
    (fixed : kind ∈ Kind.keywords ++ Kind.signs) : token.shortest = (kind, kind.symbol) := by
  have other : kind ≠ .integer := by
    rintro rfl
    exact absurd fixed (by decide)
  exact (Token.shortest_of_kind same other).trans (read.plain same fixed)

namespace Layout

open Grammar

/-- The layout has the words of the tokens, apart from parentheses. -/
private def Resembles (tokens : List Token) (layout : List Piece) : Prop :=
  unparenthesized (words layout) = unparenthesized (tokens.map Token.shortest)

namespace Resembles
variable {a b : List Token} {x y : List Piece} {token : Token} {kind : Kind} {literal : String}

private theorem nil : Resembles [] [] := rfl

private theorem append (first : Resembles a x) (second : Resembles b y) : Resembles (a ++ b) (x ++ y) := by
  have first : unparenthesized (words x) = unparenthesized (a.map Token.shortest) := first
  have second : unparenthesized (words y) = unparenthesized (b.map Token.shortest) := second
  rw [Resembles, words, List.filterMap_append, List.map_append, unparenthesized, List.filter_append,
    unparenthesized, List.filter_append]
  exact congr (congrArg HAppend.hAppend first) second

private theorem gap (h : Resembles a x) : Resembles a (.gap :: x) := h

private theorem word (same : token.shortest = (kind, literal)) (h : Resembles a x) :
    Resembles (token :: a) (.word kind literal :: x) := by
  have one : Resembles [token] [.word kind literal] := by
    rw [Resembles, List.map_singleton, same]
    rfl
  exact one.append h

/-- Parentheses of the layout are passed over. -/
private theorem parenthesis (paren : kind = .leftParen ∨ kind = .rightParen) (h : Resembles a x) :
    Resembles a (.sign kind :: x) := by
  obtain rfl | rfl := paren <;> exact h

/-- Parentheses of the text are passed over. -/
private theorem group (paren : token.kind = .leftParen ∨ token.kind = .rightParen) (h : Resembles a x) :
    Resembles (token :: a) x := by
  have one : Resembles [token] [] := by
    obtain paren | paren := paren
    all_goals
      rw [Resembles, List.map_singleton, Token.shortest_of_kind paren (by decide), Token.spelling, paren]
      rfl
  exact one.append h

/-- The parenthesis that closes a layout is passed over. -/
private theorem closed (h : Resembles a x) : Resembles a (x ++ [.sign .rightParen]) := by
  have none : Resembles [] [.sign .rightParen] := .parenthesis (.inr rfl) .nil
  have whole := h.append none
  rwa [List.append_nil] at whole

private theorem spelled (same : token.kind = kind) (other : kind ≠ .integer) (h : Resembles a x) :
    Resembles (token :: a) (.spelled token :: x) := word (Token.shortest_of_kind same other) h

private theorem named (same : token.kind = .identifier) (h : Resembles a x) :
    Resembles (token :: a) (.named (Name.ofToken token) :: x) :=
  word ((Token.shortest_of_kind same (by decide)).trans (Prod.ext same rfl)) h

private theorem sign (read : token.Read) (same : token.kind = kind) (fixed : kind ∈ Kind.keywords ++ Kind.signs)
    (h : Resembles a x) : Resembles (token :: a) (.sign kind :: x) := word (read.shortest same fixed) h

end Resembles

private theorem separated_cons {item : List Piece} {items : List (List Piece)} (proper : items ≠ []) :
    separated (item :: items) = item ++ .sign .comma :: .gap :: separated items := by
  rw [separated, List.append_assoc, List.cons_append, List.cons_append, List.nil_append]
  exact proper

private theorem resembles_parameters {names : List Name} {tokens : List Token} (h : Parameters names tokens)
    (read : ∀ token ∈ tokens, token.Read) :
    Resembles tokens (separated (names.map fun name => [.named name])) := by
  induction h with
  | none => exact .nil
  | last named => exact .named named .nil
  | @more token comma names tokens named commas _ proper ih =>
    obtain ⟨comma, others⟩ := List.forall_mem_cons.1 (List.forall_mem_cons.1 read).2
    have proper : names.map (fun name => [Piece.named name]) ≠ [] := fun nothing =>
      proper (List.map_eq_nil_iff.1 nothing)
    rw [List.map_cons, separated_cons proper]
    exact .named named (.sign comma commas (by decide) (.gap (ih others)))

private theorem resembles_condition {guard : Expression} {tokens : List Token}
    (h : Resembles tokens (expression guard)) : Resembles tokens (condition guard (expression guard)) := by
  rw [condition_eq]
  split
  · exact h
  · rw [List.append_assoc]
    exact .parenthesis (.inl rfl) h.closed

def phrase : Phrase → List Piece
  | .expression _ tree _ | .whole tree => expression tree
  | .arguments trees => separated (expressions trees)
  | .function token parameters body => functionHead token parameters ++ block body
  | .block tree => block tree
  | .alternative tree => alternative tree
  | .statement tree => statement tree
  | .statements _ trees => spaced trees

/-- The parentheses around what is kept leave no word. -/
private theorem resembles_group {opening closing : Token} {tokens : List Token} {layout : List Piece}
    (opens : opening.kind = .leftParen) (h : Resembles tokens layout) (closes : closing.kind = .rightParen) :
    Resembles (opening :: (tokens ++ [closing])) layout := by
  have none : Resembles [closing] [] := .group (.inr closes) .nil
  have whole := h.append none
  rw [List.append_nil] at whole
  exact .group (.inl opens) whole

/-- The layout of a phrase resembles the tokens that are kept of it. -/
private theorem resembles_of_clean {phrase : Phrase} {tokens kept : List Token} (h : Clean phrase tokens kept)
    (read : ∀ token ∈ tokens, token.Read) : Resembles kept (Layout.phrase phrase) := by
  induction h with
  | name kind => exact .named kind .nil
  | integer kind _ => exact .word (Token.shortest_of_integer kind) .nil
  | boolean value kind =>
    exact .sign (List.forall_mem_singleton.1 read) kind (by cases value <;> decide) .nil
  | group opens _ closes inside =>
    simp only [List.forall_mem_cons, List.forall_mem_append] at read
    exact resembles_group opens (inside read.2.1) closes
  | literal _ function => exact function read
  | call opens _ _ closes left right =>
    simp only [List.forall_mem_cons, List.forall_mem_append] at read
    obtain ⟨front, opening, back, -⟩ := read
    simp only [Layout.phrase, expression, List.append_assoc, List.cons_append, List.nil_append]
    have listed := resembles_group opens (right back).closed closes
    exact (left front).append (.parenthesis (.inl rfl) listed)
  | @unary token operator _ _ _ _ kind _ right =>
    obtain ⟨token, back⟩ := List.forall_mem_cons.1 read
    simp only [Layout.phrase, expression, List.cons_append, List.nil_append]
    exact .parenthesis (.inl rfl) (.sign token kind (by cases operator <;> decide) (right back).closed)
  | @binary _ operator _ _ _ _ _ _ _ _ _ kind _ _ _ first second =>
    simp only [List.forall_mem_cons, List.forall_mem_append] at read
    obtain ⟨front, token, back⟩ := read
    simp only [Layout.phrase, expression, List.append_assoc, List.cons_append, List.nil_append]
    have rest := Resembles.sign token kind (by cases operator <;> decide) (second back).closed.gap
    exact .parenthesis (.inl rfl) ((first front).append rest.gap)
  | lift _ above => exact above read
  | whole _ chain => exact chain read
  | noArguments => exact .nil
  | lastArgument _ argument => exact argument read
  | @moreArguments _ _ trees _ _ _ _ _ commas _ proper first rest =>
    simp only [List.forall_mem_cons, List.forall_mem_append] at read
    obtain ⟨front, comma, back⟩ := read
    have others : expressions trees ≠ [] := by
      cases trees with
      | nil => exact absurd rfl proper
      | cons tree trees => exact List.cons_ne_nil _ _
    simp only [Layout.phrase, expressions, separated_cons others]
    exact (first front).append (.sign comma commas (by decide) (rest back).gap)
  | function word opens named closes _ block =>
    simp only [List.forall_mem_cons, List.forall_mem_append] at read
    obtain ⟨-, -, names, -, back⟩ := read
    simp only [Layout.phrase, functionHead, List.append_assoc, List.cons_append, List.nil_append]
    have body := Resembles.group (.inr closes) (.parenthesis (.inr rfl) (block back).gap)
    have listed := (resembles_parameters named names).append body
    exact .spelled word (by decide) (.group (.inl opens) (.parenthesis (.inl rfl) listed))
  | block opens _ closes inside =>
    simp only [List.forall_mem_cons, List.forall_mem_append] at read
    obtain ⟨opening, back, closing, -⟩ := read
    simp only [Layout.phrase, Layout.block, List.cons_append, List.nil_append]
    have ended := (inside back).append (.sign closing closes (by decide) .nil)
    exact .sign opening opens (by decide) ended.gap
  | noAlternative => exact .nil
  | otherwise word _ block =>
    obtain ⟨token, back⟩ := List.forall_mem_cons.1 read
    simp only [Layout.phrase, Layout.alternative, List.cons_append, List.nil_append]
    exact .gap (.sign token word (by decide) (block back).gap)
  | binding kind named assigns _ stops right =>
    simp only [List.forall_mem_cons, List.forall_mem_append] at read
    obtain ⟨-, -, sign, back, stop, -⟩ := read
    simp only [Layout.phrase, Layout.statement, List.cons_append, List.nil_append]
    have value := (right back).append (.sign stop stops (by decide) .nil)
    have rest := Resembles.sign sign assigns (by decide) value.gap
    exact .spelled kind (by decide) (.gap (.named named rest.gap))
  | answer kind _ stops right =>
    simp only [List.forall_mem_cons, List.forall_mem_append] at read
    obtain ⟨-, back, stop, -⟩ := read
    simp only [Layout.phrase, Layout.statement, List.cons_append, List.nil_append]
    have value := (right back).append (.sign stop stops (by decide) .nil)
    exact .spelled kind (by decide) value.gap
  | assignment named assigns _ stops right =>
    simp only [List.forall_mem_cons, List.forall_mem_append] at read
    obtain ⟨-, sign, back, stop, -⟩ := read
    simp only [Layout.phrase, Layout.statement, List.cons_append, List.nil_append]
    have value := (right back).append (.sign stop stops (by decide) .nil)
    exact .named named (.gap (.sign sign assigns (by decide) value.gap))
  | conditional kind opens _ closes _ _ test block other =>
    simp only [List.forall_mem_cons, List.forall_mem_append] at read
    obtain ⟨word, -, guard, -, front, back⟩ := read
    simp only [Layout.phrase, Layout.statement, List.append_assoc, List.cons_append, List.nil_append]
    have blocks := Resembles.group (.inr closes) ((block front).append (other back))
    have rest := (resembles_condition (test guard)).append blocks.gap
    exact .sign word kind (by decide) (.gap (.group (.inl opens) rest))
  | procedure _ function => exact function read
  | stopped _ stops function => exact function (List.forall_mem_append.1 read).1
  | noStatements => exact .nil
  | statement _ _ first rest =>
    obtain ⟨front, back⟩ := List.forall_mem_append.1 read
    simp only [Layout.phrase, spaced, List.append_assoc, List.cons_append, List.nil_append]
    exact (first front).append (rest back).gap

end Layout

/-- The program of a derivation without stray tokens is the one that is parsed, if nothing is reported. -/
private theorem Grammar.Clean.parsed {text : String} {program : Program} {kept : List Token}
    (clean : Clean (.statements false program) (TokenStream.ofText text).tokens kept)
    (silent : (parse text).diagnostics = []) : (parse text).program = program := by
  obtain ⟨peak, derives⟩ := clean.derives
  obtain ⟨fits, exceeds⟩ := @ofStream_of_derives levelLimit _ _ _ derives
  by_cases room : peak ≤ levelLimit
  · exact (fits room).1
  · obtain ⟨d, mem, -⟩ := exceeds (Nat.lt_of_not_le room)
    have reported : d ∈ (parse text).diagnostics := mem
    rw [silent] at reported
    cases reported

/-- Where a text without stray tokens is parsed in silence, its canonical text has the same words, apart from
parentheses, semicolons behind function statements and zeros in front of numbers. -/
theorem words_render (text : String) (program : Program) (kept : List Token)
    (clean : Grammar.Clean (.statements false program) (TokenStream.ofText text).tokens kept)
    (silent : (parse text).diagnostics = []) :
    unparenthesized ((TokenStream.ofText (parse text).program.render).tokens.map Token.spelling) =
      unparenthesized (kept.map Token.shortest) := by
  have read : ∀ token ∈ (TokenStream.ofText text).tokens, token.Read :=
    fun token mem => (TokenStream.lexical_of_mem text token mem).imp id .inr
  have resembles := Layout.resembles_of_clean clean read
  have written := TokenStream.spelling_ofText (Layout.apart_program _ (parse_writable text).legible)
  rw [clean.parsed silent] at written ⊢
  rw [Program.render, written, ← Layout.words_spaced]
  exact resembles

/-- A function with a semicolon behind it and a number in parentheses with zeros in front. -/
theorem words_render_stopped :
    (parse "fn() \x7b \x7d; x = (007);").diagnostics = [] ∧
      unparenthesized ((TokenStream.ofText (parse "fn() \x7b \x7d; x = (007);").program.render).tokens.map
        Token.spelling) =
        [(.fnWord, "fn"), (.leftBrace, "\x7b"), (.rightBrace, "\x7d"), (.identifier, "x"), (.assign, "="),
          (.integer, "7"), (.semicolon, ";")] := by
  let fn : Token := ⟨.fnWord, "fn", ⟨1, 1⟩⟩
  let opening : Token := ⟨.leftParen, "(", ⟨1, 3⟩⟩
  let closing : Token := ⟨.rightParen, ")", ⟨1, 4⟩⟩
  let brace : Token := ⟨.leftBrace, "\x7b", ⟨1, 6⟩⟩
  let ending : Token := ⟨.rightBrace, "\x7d", ⟨1, 8⟩⟩
  let x : Token := ⟨.identifier, "x", ⟨1, 11⟩⟩
  let sign : Token := ⟨.assign, "=", ⟨1, 13⟩⟩
  let before : Token := ⟨.leftParen, "(", ⟨1, 15⟩⟩
  let number : Token := ⟨.integer, "007", ⟨1, 16⟩⟩
  let behind : Token := ⟨.rightParen, ")", ⟨1, 19⟩⟩
  let stop : Token := ⟨.semicolon, ";", ⟨1, 20⟩⟩
  have tokens : (TokenStream.ofText "fn() \x7b \x7d; x = (007);").tokens =
      [fn, opening, closing, brace, ending, ⟨.semicolon, ";", ⟨1, 9⟩⟩, x, sign, before, number, behind,
        stop] := by decide +kernel
  have function : Grammar.Clean (.function fn [] (.braced brace [])) [fn, opening, closing, brace, ending]
      [fn, opening, closing, brace, ending] :=
    .function rfl rfl .none rfl (.block rfl .noStatements rfl)
  have denotes : Numeral.value number.literal.toList = 7 := by decide +kernel
  have seven : Grammar.Clean (.expression .primary (.integer number 7) 0) [number] [number] := by
    have read := @Grammar.Clean.integer number rfl (by decide)
    rw [denotes] at read
    exact read
  have value : Grammar.Clean (.whole (.integer number 7)) [before, number, behind] [before, number, behind] :=
    (Grammar.Clean.group rfl seven.whole_of_primary rfl).whole_of_primary
  have clean : Grammar.Clean (.statements false [.function fn [] (.braced brace []),
      .assignment x (Name.ofToken x) (.integer number 7)])
      (TokenStream.ofText "fn() \x7b \x7d; x = (007);").tokens
      [fn, opening, closing, brace, ending, x, sign, before, number, behind, stop] := by
    rw [tokens]
    exact .statement (.stopped function rfl) (.statement (.assignment rfl rfl value rfl) .noStatements)
  have silent : (parse "fn() \x7b \x7d; x = (007);").diagnostics = [] := by decide +kernel
  refine ⟨silent, ?_⟩
  rw [words_render _ _ _ clean silent]
  decide +kernel

end LittleScript

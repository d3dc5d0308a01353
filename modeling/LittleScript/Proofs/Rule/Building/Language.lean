import LittleScript.Proofs.Rule.Building.Basic
import LittleScript.Proofs.Rule.Nested
import LittleScript.Proofs.Syntax.Node

/-!
Every rule of the language builds well-formed trees from the tokens of a text. Most of them look at their
first token themselves; a block is entered on its brace, and a link on the token in front of its own.
-/

namespace LittleScript

open Run Rule

/-- A token that was read is spelled like its kind, unless it is no token proper. -/
private theorem Token.Read.lexical {token : Token} {kind : Kind} (read : token.Read) (same : token.kind = kind)
    (proper : kind ≠ .illegal ∧ kind ≠ .endOfInput) : Lexical kind token.literal := by
  subst same
  obtain illegal | ended | lexical := read
  · exact absurd illegal proper.1
  · exact absurd ended proper.2
  · exact lexical

private theorem Token.Read.name {token : Token} (read : token.Read) (same : token.kind = .identifier) :
    (Name.ofToken token).WellFormed :=
  ⟨Prod.ext same rfl, Name.writable_iff.2 (read.lexical same (by decide))⟩

/-- Keywords and signs have one spelling. -/
theorem Token.Read.plain {token : Token} {kind : Kind} (read : token.Read) (same : token.kind = kind)
    (fixed : kind ∈ Kind.keywords ++ Kind.signs) : token.Plain kind := by
  have lexical := read.lexical same (by revert fixed; cases kind <;> decide)
  obtain reserved | sign := List.mem_append.1 fixed
  · exact Prod.ext same (lexical.of_keyword reserved)
  · exact Prod.ext same (lexical.of_sign sign)

/-- A numeral that is read denotes its value. -/
private theorem Token.Read.denotes {token : Token} {value : Nat} (read : token.Read) (same : token.kind = .integer)
    (number : Numeral.read? token.literal = some value) : token.Denotes value := by
  obtain ⟨proper, digits⟩ := (read.lexical same (by decide)).of_integer
  obtain ⟨rfl, fits⟩ := Numeral.read?_eq_some.1 number
  exact ⟨same, proper, digits, rfl, fits⟩

abbrev Expression.WellFormed (e : Expression) : Prop := AllWellFormed e.nodes

abbrev Block.WellFormed (b : Block) : Prop := AllWellFormed b.nodes

abbrev Statement.WellFormed (s : Statement) : Prop := AllWellFormed s.nodes

structure Inner.Builds (inner : Inner) : Prop where
  expression : ∀ precedence, Rule.Builds (inner.expression precedence) Expression.WellFormed
  block : ∀ token, token.Plain .leftBrace → Rule.BuildsOn token inner.block Block.WellFormed

namespace Rule.Builds
variable {inner : Inner}

private theorem nextExpression (h : inner.Builds) : Builds (nextExpression inner) Expression.WellFormed :=
  (any _).bind fun _ _ => h.expression .lowest

private theorem nextBlock (h : inner.Builds) : Builds (nextBlock inner) Block.WellFormed :=
  expected fun token read same => h.block token (read.plain same (by decide))

private theorem assigned (h : inner.Builds) : Builds (assigned inner) Expression.WellFormed := by
  refine (any _).bind fun _ _ => ?_
  refine (nextExpression h).bind fun value right => ?_
  exact (any _).bind fun _ _ => .pure right

private theorem parameter : Builds parameter Name.WellFormed :=
  (Builds.expect _).bind fun _ read => .pure (read.1.name read.2)

private theorem signature (h : inner.Builds) :
    Builds (signature inner) fun (parameters, body) =>
      AllWellFormed (parameters.map Node.name ++ body.nodes) := by
  refine (any _).bind fun _ _ => ?_
  refine (Builds.listed parameter).bind fun parameters names => ?_
  exact (nextBlock h).bind fun body block =>
    .pure (allWellFormed_append (allWellFormed_names names) block)

private theorem alternative (h : inner.Builds) :
    Builds (alternative inner) fun other => AllWellFormed (Block.anyNodes other) := by
  refine (any _).bind fun _ _ => ?_
  split
  · refine (any _).bind fun _ _ => ?_
    exact (nextBlock h).bind fun body block => .pure block
  · exact .pure fun _ none => absurd none List.not_mem_nil

end Rule.Builds

namespace Rule.BuildsOn
variable {token : Token} {inner : Inner}

private theorem binding (h : inner.Builds) (plain : token.Plain .letWord) :
    BuildsOn token (binding inner) Statement.WellFormed := by
  refine current (of_builds ((Builds.expect _).bind fun name named => ?_))
  exact (Builds.assigned h).bind fun value right =>
    .pure (allWellFormed_cons plain (allWellFormed_cons (named.1.name named.2) right))

private theorem answer (h : inner.Builds) (plain : token.Plain .returnWord) :
    BuildsOn token (answer inner) Statement.WellFormed := by
  refine current (of_builds ((Builds.nextExpression h).bind fun value right => ?_))
  exact (Builds.any _).bind fun _ _ => .pure (allWellFormed_cons plain right)

private theorem assignment (h : inner.Builds) (named : (Name.ofToken token).WellFormed) :
    BuildsOn token (assignment inner) Statement.WellFormed :=
  current (of_builds ((Builds.assigned h).bind fun _ right =>
    .pure (allWellFormed_cons rfl (allWellFormed_cons named right))))

private theorem conditional (h : inner.Builds) (plain : token.Plain .ifWord) :
    BuildsOn token (conditional inner) Statement.WellFormed := by
  refine current (of_builds ((Builds.any _).bind fun _ _ => ?_))
  refine (Builds.nextExpression h).bind fun condition test => ?_
  refine (Builds.any _).bind fun _ _ => ?_
  refine (Builds.nextBlock h).bind fun consequence block => ?_
  exact (Builds.alternative h).bind fun other otherwise =>
    .pure (allWellFormed_cons plain (allWellFormed_append (allWellFormed_append test block) otherwise))

private theorem functionStatement (h : inner.Builds) (plain : token.Plain .fnWord) :
    BuildsOn token (functionStatement inner) Statement.WellFormed := by
  refine current (of_builds ((Builds.signature h).bind fun (parameters, body) parts => ?_))
  refine (Builds.any _).bind fun _ _ => ?_
  dsimp only
  split
  · exact (Builds.any _).bind fun _ _ => .pure (allWellFormed_cons plain parts)
  · exact .pure (allWellFormed_cons plain parts)

private theorem statementOn (h : inner.Builds) (read : token.Read) :
    BuildsOn token (statementOn inner token) Statement.WellFormed := by
  unfold Rule.statementOn
  split
  · exact binding h (read.plain ‹_› (by decide))
  · exact answer h (read.plain ‹_› (by decide))
  · exact functionStatement h (read.plain ‹_› (by decide))
  · exact conditional h (read.plain ‹_› (by decide))
  · exact assignment h (read.name ‹_›)
  · exact of_builds (.refuse _ _)
  · exact of_builds .skip

end Rule.BuildsOn

namespace Rule.Builds
variable {inner : Inner}

private theorem statement (h : inner.Builds) : Builds (statement inner) Statement.WellFormed := by
  intro s read a t run
  have value : ((Rule.statementOn inner s.current).run s.begun).1 = some a := congrArg Prod.fst run
  exact BuildsOn.statementOn h read.current s.begun (read.leads (.record s _)) rfl a _ (Prod.ext value rfl)

/-- A statement of the program itself. -/
theorem topStatement {limit : Nat} (h : (within limit limit).Builds) :
    Builds (topStatement limit) Statement.WellFormed := by
  refine (statement h).bind fun tree parts => ?_
  exact (any _).bind fun _ _ => .pure parts

theorem openBlock (h : inner.Builds) {token : Token} (plain : token.Plain .leftBrace) :
    BuildsOn token (openBlock inner) Block.WellFormed := by
  refine BuildsOn.current (.of_builds ((any _).bind fun _ _ => ?_))
  exact ((statement h).sequence _).bind fun body all =>
    .pure (allWellFormed_cons plain (Statement.allNodes_wellFormed all))

theorem closed {block : Block} (h : block.WellFormed) : Builds (closed block) Block.WellFormed := by
  refine (any _).bind fun _ _ => ?_
  split
  · exact .pure h
  · exact .refuse _ _

private theorem integer {token : Token} (read : token.Read) (kind : token.kind = .integer) :
    Builds (integer token) Expression.WellFormed := by
  unfold Rule.integer
  split
  · rename_i value number
    exact .pure (List.forall_mem_singleton.2 (read.denotes kind number))
  · exact .refuse _ _

private theorem unary (h : inner.Builds) {token : Token} {operator : UnaryOperator}
    (plain : token.Plain operator.kind) : Builds (unary inner token operator) Expression.WellFormed := by
  refine (any _).bind fun _ _ => ?_
  exact (h.expression .unary).bind fun operand right => .pure (allWellFormed_cons plain right)

private theorem grouped (h : inner.Builds) : Builds (grouped inner) Expression.WellFormed := by
  refine (nextExpression h).bind fun expression inside => ?_
  exact (any _).bind fun _ _ => .pure inside

theorem operand (h : inner.Builds) : Builds (operand inner) Expression.WellFormed := by
  refine Builds.current.bind fun token read => ?_
  unfold operandOn
  split
  · exact .pure (List.forall_mem_singleton.2 (read.name ‹_›))
  · exact integer read ‹_›
  · exact unary h (read.plain ‹_› (by decide))
  · exact unary h (read.plain ‹_› (by decide))
  · exact .pure (List.forall_mem_singleton.2 (read.plain ‹_› (by decide)))
  · exact .pure (List.forall_mem_singleton.2 (read.plain ‹_› (by decide)))
  · exact grouped h
  · exact (signature h).bind fun (parameters, body) parts =>
      .pure (allWellFormed_cons (read.plain ‹_› (by decide)) parts)
  · exact .refuse _ _
  · exact .refuse _ _

/-- The token behind the current one makes the link, and the node keeps it. -/
theorem linked (h : inner.Builds) {token : Token} (read : token.Read) {link : Link}
    (made : Link.ofKind? token.kind = some link) {left : Expression} (first : left.WellFormed) :
    BuildsBefore token (linked inner link left) Expression.WellFormed := by
  refine BuildsBefore.advance (BuildsOn.current (.of_builds ?_))
  cases link with
  | binary operator =>
    have plain : token.Plain operator.kind :=
      read.plain (ofKind?_binary.1 made) (by cases operator <;> decide)
    refine (any _).bind fun _ _ => ?_
    exact (h.expression _).bind fun right second =>
      .pure (allWellFormed_cons plain (allWellFormed_append first second))
  | call =>
    have plain : token.Plain .leftParen := read.plain (ofKind?_call.1 made) (by decide)
    exact (nextExpression h).listed.bind fun arguments all =>
      .pure (allWellFormed_cons plain (allWellFormed_append first (Expression.allNodes_wellFormed all)))

end Rule.Builds
end LittleScript

import LittleScript.Numeral
import LittleScript.Proofs.Run.Stretch
import LittleScript.Proofs.Syntax.Layer

/-!
The grammar of the language, with stray tokens that belong to no statement. A derivation gives a
sequence of tokens its tree and counts the levels that are open at once while it is read.
-/

namespace LittleScript

/-- Tokens of this kind may stand where a statement could begin, without beginning one. A closing
brace ends a block, so it is stray only outside of all blocks. -/
def Kind.Stray (inBlock : Bool) (kind : Kind) : Prop :=
  kind ∉ [.letWord, .returnWord, .fnWord, .ifWord, .identifier, .illegal] ∧
    (inBlock = true → kind ≠ .rightBrace)

/-- An `if` without a second block. An `else` behind it would belong to it. -/
def Statement.openEnded : Statement → Bool
  | conditional _ _ _ none => true
  | _ => false

namespace Grammar

inductive Phrase where
  /-- An expression of a layer, with the number of links that its chain holds. -/
  | expression (layer : Layer) (tree : Expression) (held : Nat)
  /-- An expression that may have operators of all layers. -/
  | whole (tree : Expression)
  | arguments (trees : List Expression)
  | function (token : Token) (parameters : List Name) (body : Block)
  | block (tree : Block)
  /-- What follows the first block of an `if`. -/
  | alternative (tree : Option Block)
  | statement (tree : Statement)
  /-- Statements with stray tokens between them. -/
  | statements (inBlock : Bool) (trees : List Statement)

inductive Parameters : List Name → List Token → Prop where
  | none : Parameters [] []
  | last {token} (named : token.kind = .identifier) : Parameters [Name.ofToken token] [token]
  | more {token comma names tokens} (named : token.kind = .identifier) (commas : comma.kind = .comma)
      (rest : Parameters names tokens) (proper : names ≠ []) :
      Parameters (Name.ofToken token :: names) (token :: comma :: tokens)

/-- The tokens derive the phrase, with `peak` levels open at once. An expression opens a level for
itself (counted where it is a whole, or an operand), each link one that stays open until the
expression ends, and a block opens one. -/
inductive Derives : Phrase → List Token → Nat → Prop where
  | name {token} (kind : token.kind = .identifier) :
      Derives (.expression .primary (.name (Name.ofToken token)) 0) [token] 0
  | integer {token} (kind : token.kind = .integer)
      (fits : Numeral.value token.literal.toList ≤ Numeral.largest) :
      Derives (.expression .primary (.integer token (Numeral.value token.literal.toList)) 0) [token] 0
  | boolean {token} (value : Bool) (kind : token.kind = if value then .trueWord else .falseWord) :
      Derives (.expression .primary (.boolean token value) 0) [token] 0
  | group {opening closing tree tokens peak} (opens : opening.kind = .leftParen)
      (inside : Derives (.whole tree) tokens peak) (closes : closing.kind = .rightParen) :
      Derives (.expression .primary tree 0) (opening :: (tokens ++ [closing])) peak
  | literal {token parameters body tokens peak}
      (function : Derives (.function token parameters body) tokens peak) :
      Derives (.expression .primary (.function token parameters body) 0) tokens peak
  | call {opening closing callee held arguments front back low high} (opens : opening.kind = .leftParen)
      (left : Derives (.expression .call callee held) front low)
      (right : Derives (.arguments arguments) back high) (closes : closing.kind = .rightParen) :
      Derives (.expression .call (.call opening callee arguments) (held + 1))
        (front ++ opening :: (back ++ [closing])) (max low (held + 1 + high))
  | unary {token operator operand held tokens peak} (kind : token.kind = UnaryOperator.kind operator)
      (right : Derives (.expression .unary operand held) tokens peak) :
      Derives (.expression .unary (.unary token operator operand) 0) (token :: tokens) (peak + 1)
  | binary {token operator layer left right held held' front back low high}
      (kind : token.kind = BinaryOperator.kind operator) (own : operator ∈ layer.operators)
      (first : Derives (.expression layer left held) front low)
      (second : Derives (.expression layer.higher right held') back high) :
      Derives (.expression layer (.binary token operator left right) (held + 1))
        (front ++ token :: back) (max low (held + 1 + (high + 1)))
  | lift {layer tree held tokens peak} (above : Derives (.expression layer.higher tree held) tokens peak) :
      Derives (.expression layer tree held) tokens peak
  | whole {tree held tokens peak} (chain : Derives (.expression .equality tree held) tokens peak) :
      Derives (.whole tree) tokens (peak + 1)
  | noArguments : Derives (.arguments []) [] 0
  | lastArgument {tree tokens peak} (argument : Derives (.whole tree) tokens peak) :
      Derives (.arguments [tree]) tokens peak
  | moreArguments {comma tree trees front back low high} (first : Derives (.whole tree) front low)
      (commas : comma.kind = .comma) (rest : Derives (.arguments trees) back high)
      (proper : trees ≠ []) :
      Derives (.arguments (tree :: trees)) (front ++ comma :: back) (max low high)
  | function {token opening closing parameters body names tokens peak} (word : token.kind = .fnWord)
      (opens : opening.kind = .leftParen) (named : Parameters parameters names)
      (closes : closing.kind = .rightParen) (block : Derives (.block body) tokens peak) :
      Derives (.function token parameters body) (token :: opening :: (names ++ closing :: tokens)) peak
  | block {opening closing trees tokens peak} (opens : opening.kind = .leftBrace)
      (inside : Derives (.statements true trees) tokens peak) (closes : closing.kind = .rightBrace) :
      Derives (.block (.braced opening trees)) (opening :: (tokens ++ [closing])) (peak + 1)
  | noAlternative : Derives (.alternative none) [] 0
  | otherwise {token tree tokens peak} (word : token.kind = .elseWord)
      (block : Derives (.block tree) tokens peak) :
      Derives (.alternative (some tree)) (token :: tokens) peak
  | binding {word name sign stop value tokens peak} (kind : word.kind = .letWord)
      (named : name.kind = .identifier) (assigns : sign.kind = .assign)
      (right : Derives (.whole value) tokens peak) (stops : stop.kind = .semicolon) :
      Derives (.statement (.binding word (Name.ofToken name) value))
        (word :: name :: sign :: (tokens ++ [stop])) peak
  | answer {word stop value tokens peak} (kind : word.kind = .returnWord)
      (right : Derives (.whole value) tokens peak) (stops : stop.kind = .semicolon) :
      Derives (.statement (.answer word value)) (word :: (tokens ++ [stop])) peak
  | assignment {name sign stop value tokens peak} (named : name.kind = .identifier)
      (assigns : sign.kind = .assign) (right : Derives (.whole value) tokens peak)
      (stops : stop.kind = .semicolon) :
      Derives (.statement (.assignment name (Name.ofToken name) value))
        (name :: sign :: (tokens ++ [stop])) peak
  | conditional {word opening closing condition consequence alternative guard front back low mid high}
      (kind : word.kind = .ifWord) (opens : opening.kind = .leftParen)
      (test : Derives (.whole condition) guard low) (closes : closing.kind = .rightParen)
      (block : Derives (.block consequence) front mid)
      (other : Derives (.alternative alternative) back high) :
      Derives (.statement (.conditional word condition consequence alternative))
        (word :: opening :: (guard ++ closing :: (front ++ back))) (max low (max mid high))
  | procedure {token parameters body tokens peak}
      (function : Derives (.function token parameters body) tokens peak) :
      Derives (.statement (.function token parameters body)) tokens peak
  | stopped {token parameters body tokens stop peak}
      (function : Derives (.function token parameters body) tokens peak)
      (stops : stop.kind = .semicolon) :
      Derives (.statement (.function token parameters body)) (tokens ++ [stop]) peak
  | noStatements {inBlock} : Derives (.statements inBlock []) [] 0
  | stray {inBlock token trees tokens peak} (skipped : token.kind.Stray inBlock)
      (rest : Derives (.statements inBlock trees) tokens peak) :
      Derives (.statements inBlock trees) (token :: tokens) peak
  | statement {inBlock tree trees front back low high} (first : Derives (.statement tree) front low)
      (rest : Derives (.statements inBlock trees) back high)
      (complete : tree.openEnded = true → headKind back ≠ .elseWord) :
      Derives (.statements inBlock (tree :: trees)) (front ++ back) (max low high)

/-- A chain that belongs to a layer belongs to all layers before it. -/
theorem Derives.lower {layer target : Layer} {tree : Expression} {held peak : Nat} {tokens : List Token}
    (h : Derives (.expression layer tree held) tokens peak) (before : target.rank ≤ layer.rank) :
    Derives (.expression target tree held) tokens peak := by
  induction distance : layer.rank - target.rank generalizing target with
  | zero =>
    have same : layer = target := by
      have ranks : layer.rank = target.rank := by omega
      revert ranks
      cases layer <;> cases target <;> decide
    exact same ▸ h
  | succ distance ih =>
    have next : target.higher.rank = target.rank + 1 := by
      have room : target.rank < 6 := by
        have top : layer.rank ≤ 6 := by cases layer <;> decide
        omega
      revert room
      cases target <;> decide
    exact .lift (ih (by omega) (by omega))

/-- The tokens are a program, and reading it never takes more than `limit` levels at once. -/
def Sentence (limit : Nat) (tokens : List Token) (program : Program) : Prop :=
  ∃ peak, peak ≤ limit ∧ Derives (.statements false program) tokens peak

end Grammar
end LittleScript

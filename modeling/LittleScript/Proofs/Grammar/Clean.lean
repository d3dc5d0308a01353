import LittleScript.Proofs.Grammar.Beginning

/-!
The grammar without stray tokens. Beside the tokens of a phrase stands what is kept of them when the
semicolons behind function statements, which may be there or not, are deleted.
-/

namespace LittleScript.Grammar

/-- The tokens derive the phrase and each of them belongs to it. Those in the last list are kept. -/
inductive Clean : Phrase → List Token → List Token → Prop where
  | name {token} (kind : token.kind = .identifier) :
      Clean (.expression .primary (.name (Name.ofToken token)) 0) [token] [token]
  | integer {token} (kind : token.kind = .integer)
      (fits : Numeral.value token.literal.toList ≤ Numeral.largest) :
      Clean (.expression .primary (.integer token (Numeral.value token.literal.toList)) 0) [token] [token]
  | boolean {token} (value : Bool) (kind : token.kind = if value then .trueWord else .falseWord) :
      Clean (.expression .primary (.boolean token value) 0) [token] [token]
  | group {opening closing tree tokens kept} (opens : opening.kind = .leftParen)
      (inside : Clean (.whole tree) tokens kept) (closes : closing.kind = .rightParen) :
      Clean (.expression .primary tree 0) (opening :: (tokens ++ [closing]))
        (opening :: (kept ++ [closing]))
  | literal {token parameters body tokens kept}
      (function : Clean (.function token parameters body) tokens kept) :
      Clean (.expression .primary (.function token parameters body) 0) tokens kept
  | call {opening closing callee held arguments front back front' back'} (opens : opening.kind = .leftParen)
      (left : Clean (.expression .call callee held) front front')
      (right : Clean (.arguments arguments) back back') (closes : closing.kind = .rightParen) :
      Clean (.expression .call (.call opening callee arguments) (held + 1))
        (front ++ opening :: (back ++ [closing])) (front' ++ opening :: (back' ++ [closing]))
  | unary {token operator operand held tokens kept} (kind : token.kind = UnaryOperator.kind operator)
      (right : Clean (.expression .unary operand held) tokens kept) :
      Clean (.expression .unary (.unary token operator operand) 0) (token :: tokens) (token :: kept)
  | binary {token operator layer left right held held' front back front' back'}
      (kind : token.kind = BinaryOperator.kind operator) (own : operator ∈ layer.operators)
      (first : Clean (.expression layer left held) front front')
      (second : Clean (.expression layer.higher right held') back back') :
      Clean (.expression layer (.binary token operator left right) (held + 1))
        (front ++ token :: back) (front' ++ token :: back')
  | lift {layer tree held tokens kept} (above : Clean (.expression layer.higher tree held) tokens kept) :
      Clean (.expression layer tree held) tokens kept
  | whole {tree held tokens kept} (chain : Clean (.expression .equality tree held) tokens kept) :
      Clean (.whole tree) tokens kept
  | noArguments : Clean (.arguments []) [] []
  | lastArgument {tree tokens kept} (argument : Clean (.whole tree) tokens kept) :
      Clean (.arguments [tree]) tokens kept
  | moreArguments {comma tree trees front back front' back'} (first : Clean (.whole tree) front front')
      (commas : comma.kind = .comma) (rest : Clean (.arguments trees) back back') (proper : trees ≠ []) :
      Clean (.arguments (tree :: trees)) (front ++ comma :: back) (front' ++ comma :: back')
  | function {token opening closing parameters body names tokens kept} (word : token.kind = .fnWord)
      (opens : opening.kind = .leftParen) (named : Parameters parameters names)
      (closes : closing.kind = .rightParen) (block : Clean (.block body) tokens kept) :
      Clean (.function token parameters body) (token :: opening :: (names ++ closing :: tokens))
        (token :: opening :: (names ++ closing :: kept))
  | block {opening closing trees tokens kept} (opens : opening.kind = .leftBrace)
      (inside : Clean (.statements true trees) tokens kept) (closes : closing.kind = .rightBrace) :
      Clean (.block (.braced opening trees)) (opening :: (tokens ++ [closing]))
        (opening :: (kept ++ [closing]))
  | noAlternative : Clean (.alternative none) [] []
  | otherwise {token tree tokens kept} (word : token.kind = .elseWord)
      (block : Clean (.block tree) tokens kept) :
      Clean (.alternative (some tree)) (token :: tokens) (token :: kept)
  | binding {word name sign stop value tokens kept} (kind : word.kind = .letWord)
      (named : name.kind = .identifier) (assigns : sign.kind = .assign)
      (right : Clean (.whole value) tokens kept) (stops : stop.kind = .semicolon) :
      Clean (.statement (.binding word (Name.ofToken name) value))
        (word :: name :: sign :: (tokens ++ [stop])) (word :: name :: sign :: (kept ++ [stop]))
  | answer {word stop value tokens kept} (kind : word.kind = .returnWord)
      (right : Clean (.whole value) tokens kept) (stops : stop.kind = .semicolon) :
      Clean (.statement (.answer word value)) (word :: (tokens ++ [stop])) (word :: (kept ++ [stop]))
  | assignment {name sign stop value tokens kept} (named : name.kind = .identifier)
      (assigns : sign.kind = .assign) (right : Clean (.whole value) tokens kept)
      (stops : stop.kind = .semicolon) :
      Clean (.statement (.assignment name (Name.ofToken name) value))
        (name :: sign :: (tokens ++ [stop])) (name :: sign :: (kept ++ [stop]))
  | conditional {word opening closing condition consequence alternative guard front back guard' front' back'}
      (kind : word.kind = .ifWord) (opens : opening.kind = .leftParen)
      (test : Clean (.whole condition) guard guard') (closes : closing.kind = .rightParen)
      (block : Clean (.block consequence) front front')
      (other : Clean (.alternative alternative) back back') :
      Clean (.statement (.conditional word condition consequence alternative))
        (word :: opening :: (guard ++ closing :: (front ++ back)))
        (word :: opening :: (guard' ++ closing :: (front' ++ back')))
  | procedure {token parameters body tokens kept}
      (function : Clean (.function token parameters body) tokens kept) :
      Clean (.statement (.function token parameters body)) tokens kept
  /-- The semicolon behind the body is deleted. -/
  | stopped {token parameters body tokens stop kept}
      (function : Clean (.function token parameters body) tokens kept) (stops : stop.kind = .semicolon) :
      Clean (.statement (.function token parameters body)) (tokens ++ [stop]) kept
  | noStatements {inBlock} : Clean (.statements inBlock []) [] []
  | statement {inBlock tree trees front back front' back'} (first : Clean (.statement tree) front front')
      (rest : Clean (.statements inBlock trees) back back') :
      Clean (.statements inBlock (tree :: trees)) (front ++ back) (front' ++ back')

section
variable {phrase : Phrase} {tokens kept : List Token}

/-- A primary is a whole expression. -/
theorem Clean.whole_of_primary {tree : Expression} {held : Nat}
    (h : Clean (.expression .primary tree held) tokens kept) : Clean (.whole tree) tokens kept :=
  .whole (.lift (.lift (.lift (.lift (.lift (.lift h))))))

def BeginsStatement : Phrase → List Token → Prop
  | .function .., tokens | .statement _, tokens => tokens ≠ [] ∧ headKind tokens ∈ beginnings
  | .statements .., tokens => headKind tokens ≠ .elseWord
  | _, _ => True

/-- Without stray tokens no `else` can follow a statement that it does not belong to. -/
private theorem Clean.beginsStatement (h : Clean phrase tokens kept) : BeginsStatement phrase tokens := by
  induction h with
  | function word => exact beginsStatement_of_kind word (by decide)
  | binding kind => exact beginsStatement_of_kind kind (by decide)
  | answer kind => exact beginsStatement_of_kind kind (by decide)
  | assignment kind => exact beginsStatement_of_kind kind (by decide)
  | conditional kind => exact beginsStatement_of_kind kind (by decide)
  | procedure _ ih => exact ih
  | stopped _ _ ih => exact begins_append (P := (· ∈ beginnings)) ih _
  | noStatements =>
    have ended : headKind [] ≠ .elseWord := by decide
    exact ended
  | statement _ _ first _ =>
    rw [BeginsStatement, headKind_append first.1]
    intro other
    have begins := first.2
    rw [other] at begins
    exact absurd begins (by decide)
  | _ => trivial

/-- The grammar with stray tokens derives what the one without them derives. -/
theorem Clean.derives (h : Clean phrase tokens kept) : ∃ peak, Derives phrase tokens peak := by
  induction h with
  | name kind => exact ⟨_, .name kind⟩
  | integer kind fits => exact ⟨_, .integer kind fits⟩
  | boolean value kind => exact ⟨_, .boolean value kind⟩
  | group opens _ closes inside => exact ⟨_, .group opens inside.choose_spec closes⟩
  | literal _ function => exact ⟨_, .literal function.choose_spec⟩
  | call opens _ _ closes left right => exact ⟨_, .call opens left.choose_spec right.choose_spec closes⟩
  | unary kind _ right => exact ⟨_, .unary kind right.choose_spec⟩
  | binary kind own _ _ first second => exact ⟨_, .binary kind own first.choose_spec second.choose_spec⟩
  | lift _ above => exact ⟨_, .lift above.choose_spec⟩
  | whole _ chain => exact ⟨_, .whole chain.choose_spec⟩
  | noArguments => exact ⟨_, .noArguments⟩
  | lastArgument _ argument => exact ⟨_, .lastArgument argument.choose_spec⟩
  | moreArguments _ commas _ proper first rest =>
    exact ⟨_, .moreArguments first.choose_spec commas rest.choose_spec proper⟩
  | function word opens named closes _ block => exact ⟨_, .function word opens named closes block.choose_spec⟩
  | block opens _ closes inside => exact ⟨_, .block opens inside.choose_spec closes⟩
  | noAlternative => exact ⟨_, .noAlternative⟩
  | otherwise word _ block => exact ⟨_, .otherwise word block.choose_spec⟩
  | binding kind named assigns _ stops right => exact ⟨_, .binding kind named assigns right.choose_spec stops⟩
  | answer kind _ stops right => exact ⟨_, .answer kind right.choose_spec stops⟩
  | assignment named assigns _ stops right => exact ⟨_, .assignment named assigns right.choose_spec stops⟩
  | conditional kind opens _ closes _ _ test block other =>
    exact ⟨_, .conditional kind opens test.choose_spec closes block.choose_spec other.choose_spec⟩
  | procedure _ function => exact ⟨_, .procedure function.choose_spec⟩
  | stopped _ stops function => exact ⟨_, .stopped function.choose_spec stops⟩
  | noStatements => exact ⟨_, .noStatements⟩
  | statement _ rest first others =>
    exact ⟨_, .statement first.choose_spec others.choose_spec fun _ => rest.beginsStatement⟩

end
end LittleScript.Grammar

import LittleScript.Numeral
import LittleScript.Proofs.Token.Lexical
import LittleScript.Syntax.Tree

/-!
Trees that can be written down and read again, and trees of which every token is the one that would
be read. The first is a matter of names, numbers and keywords; the second is about all nodes.
-/

namespace LittleScript

def Token.Plain (token : Token) (kind : Kind) : Prop := token.spelling = (kind, kind.symbol)

instance (token : Token) (kind : Kind) : Decidable (token.Plain kind) := inferInstanceAs (Decidable (_ = _))

/-- A name is a word of letters and underscores that is not reserved. -/
structure Name.Writable (name : Name) : Prop where
  proper : name.text ≠ ""
  letters : ∀ c ∈ name.text.toList, isLetter c = true
  unreserved : ∀ kind ∈ Kind.keywords, name.text ≠ kind.symbol

instance (name : Name) : Decidable name.Writable :=
  decidable_of_iff (name.text ≠ "" ∧ name.text.toList.all isLetter = true ∧
    name.text ∉ Kind.keywords.map Kind.symbol) (by
      constructor
      · rintro ⟨proper, letters, unreserved⟩
        refine ⟨proper, List.all_eq_true.1 letters, fun kind mem same => unreserved ?_⟩
        exact List.mem_map.2 ⟨kind, mem, same.symm⟩
      · rintro ⟨proper, letters, unreserved⟩
        refine ⟨proper, List.all_eq_true.2 letters, fun mem => ?_⟩
        obtain ⟨kind, reserved, same⟩ := List.mem_map.1 mem
        exact unreserved kind reserved same.symm)

/-- Names that can be written are spelled like identifiers. -/
theorem Name.writable_iff {name : Name} : name.Writable ↔ Lexical .identifier name.text := by
  constructor
  · intro h
    exact .identifier h.proper h.letters h.unreserved
  · intro h
    obtain ⟨proper, letters, unreserved⟩ := h.of_identifier
    exact ⟨proper, letters, unreserved⟩

mutual

def Expression.Writable : Expression → Prop
  | .name name => name.Writable
  | .integer _ value => 0 ≤ value ∧ value ≤ Numeral.largest
  | .boolean _ _ => True
  | .unary _ _ operand => operand.Writable
  | .binary _ _ left right => left.Writable ∧ right.Writable
  | .call _ callee arguments => callee.Writable ∧ Expression.AllWritable arguments
  | .function token parameters body =>
    token.Plain .fnWord ∧ (∀ name ∈ parameters, name.Writable) ∧ body.Writable

def Expression.AllWritable : List Expression → Prop
  | [] => True
  | e :: es => e.Writable ∧ Expression.AllWritable es

def Block.Writable : Block → Prop
  | .braced _ body => Statement.AllWritable body

def Block.OptionWritable : Option Block → Prop
  | none => True
  | some other => other.Writable

def Statement.AllWritable : List Statement → Prop
  | [] => True
  | s :: rest => s.Writable ∧ Statement.AllWritable rest

def Statement.Writable : Statement → Prop
  | .binding token name value => token.Plain .letWord ∧ name.Writable ∧ value.Writable
  | .answer token value => token.Plain .returnWord ∧ value.Writable
  | .assignment _ name value => name.Writable ∧ value.Writable
  | .conditional _ guard consequence other =>
    guard.Writable ∧ consequence.Writable ∧ Block.OptionWritable other
  | .function token parameters body =>
    token.Plain .fnWord ∧ (∀ name ∈ parameters, name.Writable) ∧ body.Writable

end

mutual

instance Expression.decidableWritable : (e : Expression) → Decidable e.Writable
  | .name name => inferInstanceAs (Decidable name.Writable)
  | .integer _ _ => inferInstanceAs (Decidable (_ ∧ _))
  | .boolean _ _ => .isTrue trivial
  | .unary _ _ operand => operand.decidableWritable
  | .binary _ _ left right =>
    have := left.decidableWritable
    have := right.decidableWritable
    inferInstanceAs (Decidable (_ ∧ _))
  | .call _ callee arguments =>
    have := callee.decidableWritable
    have := Expression.decidableAllWritable arguments
    inferInstanceAs (Decidable (_ ∧ _))
  | .function _ _ body =>
    have := body.decidableWritable
    inferInstanceAs (Decidable (_ ∧ _ ∧ _))

instance Expression.decidableAllWritable : (es : List Expression) → Decidable (Expression.AllWritable es)
  | [] => .isTrue trivial
  | e :: es =>
    have := e.decidableWritable
    have := Expression.decidableAllWritable es
    inferInstanceAs (Decidable (_ ∧ _))

instance Block.decidableWritable : (b : Block) → Decidable b.Writable
  | .braced _ body => Statement.decidableAllWritable body

instance Block.decidableOptionWritable : (b : Option Block) → Decidable (Block.OptionWritable b)
  | none => .isTrue trivial
  | some other => other.decidableWritable

instance Statement.decidableAllWritable : (body : List Statement) → Decidable (Statement.AllWritable body)
  | [] => .isTrue trivial
  | s :: rest =>
    have := s.decidableWritable
    have := Statement.decidableAllWritable rest
    inferInstanceAs (Decidable (_ ∧ _))

instance Statement.decidableWritable : (s : Statement) → Decidable s.Writable
  | .binding _ _ value =>
    have := value.decidableWritable
    inferInstanceAs (Decidable (_ ∧ _ ∧ _))
  | .answer _ value =>
    have := value.decidableWritable
    inferInstanceAs (Decidable (_ ∧ _))
  | .assignment _ _ value =>
    have := value.decidableWritable
    inferInstanceAs (Decidable (_ ∧ _))
  | .conditional _ guard consequence other =>
    have := guard.decidableWritable
    have := consequence.decidableWritable
    have := Block.decidableOptionWritable other
    inferInstanceAs (Decidable (_ ∧ _ ∧ _))
  | .function _ _ body =>
    have := body.decidableWritable
    inferInstanceAs (Decidable (_ ∧ _ ∧ _))

end

def Program.Writable (program : Program) : Prop := Statement.AllWritable program

instance (program : Program) : Decidable program.Writable := Statement.decidableAllWritable program

def Name.Faithful (name : Name) : Prop := name.token.spelling = (.identifier, name.text)

instance (name : Name) : Decidable name.Faithful := inferInstanceAs (Decidable (_ = _))

mutual

/-- Every node keeps the token that its layout has for it: a number has its decimal, an operator its
sign, a call its opening parenthesis. -/
def Expression.Faithful : Expression → Prop
  | .name name => name.Faithful
  | .integer token value => token.spelling = (.integer, toString value)
  | .boolean token value => token.Plain (if value then .trueWord else .falseWord)
  | .unary token operator operand => token.Plain operator.kind ∧ operand.Faithful
  | .binary token operator left right => token.Plain operator.kind ∧ left.Faithful ∧ right.Faithful
  | .call token callee arguments =>
    token.Plain .leftParen ∧ callee.Faithful ∧ Expression.AllFaithful arguments
  | .function token parameters body =>
    token.Plain .fnWord ∧ (∀ name ∈ parameters, name.Faithful) ∧ body.Faithful

def Expression.AllFaithful : List Expression → Prop
  | [] => True
  | e :: es => e.Faithful ∧ Expression.AllFaithful es

def Block.Faithful : Block → Prop
  | .braced token body => token.Plain .leftBrace ∧ Statement.AllFaithful body

def Block.OptionFaithful : Option Block → Prop
  | none => True
  | some other => other.Faithful

def Statement.AllFaithful : List Statement → Prop
  | [] => True
  | s :: rest => s.Faithful ∧ Statement.AllFaithful rest

def Statement.Faithful : Statement → Prop
  | .binding token name value => token.Plain .letWord ∧ name.Faithful ∧ value.Faithful
  | .answer token value => token.Plain .returnWord ∧ value.Faithful
  | .assignment token name value =>
    token.spelling = name.token.spelling ∧ name.Faithful ∧ value.Faithful
  | .conditional token guard consequence other =>
    token.Plain .ifWord ∧ guard.Faithful ∧ consequence.Faithful ∧ Block.OptionFaithful other
  | .function token parameters body =>
    token.Plain .fnWord ∧ (∀ name ∈ parameters, name.Faithful) ∧ body.Faithful

end

mutual

instance Expression.decidableFaithful : (e : Expression) → Decidable e.Faithful
  | .name name => inferInstanceAs (Decidable name.Faithful)
  | .integer _ _ => inferInstanceAs (Decidable (_ = _))
  | .boolean _ _ => inferInstanceAs (Decidable (Token.Plain _ _))
  | .unary _ _ operand =>
    have := operand.decidableFaithful
    inferInstanceAs (Decidable (_ ∧ _))
  | .binary _ _ left right =>
    have := left.decidableFaithful
    have := right.decidableFaithful
    inferInstanceAs (Decidable (_ ∧ _ ∧ _))
  | .call _ callee arguments =>
    have := callee.decidableFaithful
    have := Expression.decidableAllFaithful arguments
    inferInstanceAs (Decidable (_ ∧ _ ∧ _))
  | .function _ _ body =>
    have := body.decidableFaithful
    inferInstanceAs (Decidable (_ ∧ _ ∧ _))

instance Expression.decidableAllFaithful : (es : List Expression) → Decidable (Expression.AllFaithful es)
  | [] => .isTrue trivial
  | e :: es =>
    have := e.decidableFaithful
    have := Expression.decidableAllFaithful es
    inferInstanceAs (Decidable (_ ∧ _))

instance Block.decidableFaithful : (b : Block) → Decidable b.Faithful
  | .braced _ body =>
    have := Statement.decidableAllFaithful body
    inferInstanceAs (Decidable (_ ∧ _))

instance Block.decidableOptionFaithful : (b : Option Block) → Decidable (Block.OptionFaithful b)
  | none => .isTrue trivial
  | some other => other.decidableFaithful

instance Statement.decidableAllFaithful : (body : List Statement) → Decidable (Statement.AllFaithful body)
  | [] => .isTrue trivial
  | s :: rest =>
    have := s.decidableFaithful
    have := Statement.decidableAllFaithful rest
    inferInstanceAs (Decidable (_ ∧ _))

instance Statement.decidableFaithful : (s : Statement) → Decidable s.Faithful
  | .binding _ _ value =>
    have := value.decidableFaithful
    inferInstanceAs (Decidable (_ ∧ _ ∧ _))
  | .answer _ value =>
    have := value.decidableFaithful
    inferInstanceAs (Decidable (_ ∧ _))
  | .assignment _ _ value =>
    have := value.decidableFaithful
    inferInstanceAs (Decidable (_ ∧ _ ∧ _))
  | .conditional _ guard consequence other =>
    have := guard.decidableFaithful
    have := consequence.decidableFaithful
    have := Block.decidableOptionFaithful other
    inferInstanceAs (Decidable (_ ∧ _ ∧ _ ∧ _))
  | .function _ _ body =>
    have := body.decidableFaithful
    inferInstanceAs (Decidable (_ ∧ _ ∧ _))

end

def Program.Faithful (program : Program) : Prop := Statement.AllFaithful program

instance (program : Program) : Decidable program.Faithful := Statement.decidableAllFaithful program

end LittleScript

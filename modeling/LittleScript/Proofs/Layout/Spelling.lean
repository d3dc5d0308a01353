import LittleScript.Proofs.Layout.Reading
import LittleScript.Proofs.Syntax.Canonical
import LittleScript.Proofs.Syntax.Levels
import LittleScript.Syntax.Alike

/-!
Tokens that are spelled like a layout, word by word, and trees that are copies of another one: they
are written like it, and if its tokens are those of its layout, they are the same tree.
-/

namespace LittleScript

def Spells (tokens : List Token) (layout : List Piece) : Prop :=
  tokens.map Token.spelling = Layout.words layout

section
variable {tokens : List Token} {kind : Kind} {literal : String} {rest a b : List Piece}

theorem Spells.append (h : Spells tokens (a ++ b)) :
    ∃ front back, tokens = front ++ back ∧ Spells front a ∧ Spells back b := by
  rw [Spells, Layout.words, List.filterMap_append, List.map_eq_append_iff] at h
  exact h

theorem Spells.word (h : Spells tokens (.word kind literal :: rest)) :
    ∃ token others, tokens = token :: others ∧ token.spelling = (kind, literal) ∧ Spells others rest := by
  have h : tokens.map Token.spelling = (kind, literal) :: Layout.words rest := h
  rw [List.map_eq_cons_iff] at h
  exact h

theorem Spells.last (h : Spells tokens [.word kind literal]) :
    ∃ token, tokens = [token] ∧ token.spelling = (kind, literal) := by
  obtain ⟨token, none, rfl, same, nothing⟩ := h.word
  have ended : none = [] := List.map_eq_nil_iff.1 nothing
  exact ⟨token, by rw [ended], same⟩

theorem Spells.gap (h : Spells tokens (.gap :: rest)) : Spells tokens rest := h

theorem Spells.nil (h : Spells tokens []) : tokens = [] := List.map_eq_nil_iff.1 h

end

/-- Tokens that are spelled alike are alike. -/
theorem Token.alike_of_spelling {a b : Token} (h : a.spelling = b.spelling) : a.alike b = true :=
  decide_eq_true h

theorem Token.kind_of_spelling {token : Token} {kind : Kind} {literal : String}
    (h : token.spelling = (kind, literal)) : token.kind = kind := congrArg Prod.fst h

theorem Piece.spelled_congr {a b : Token} (h : a.spelling = b.spelling) : spelled a = spelled b := by
  obtain ⟨kind, literal⟩ := Prod.mk.inj h
  rw [spelled, spelled, kind, literal]

theorem Name.named_ofToken {token : Token} {name : Name} (h : token.spelling = (.identifier, name.text)) :
    Piece.named (Name.ofToken token) = .named name := by
  have literal : token.literal = name.text := congrArg Prod.snd h
  rw [Piece.named, Piece.named, Name.ofToken, literal]

theorem Name.alike_ofToken {token : Token} {name : Name} (h : token.spelling = (.identifier, name.text))
    (faithful : name.Faithful) : (Name.ofToken token).alike name = true := by
  have literal : token.literal = name.text := congrArg Prod.snd h
  rw [Name.alike, Bool.and_eq_true]
  exact ⟨Token.alike_of_spelling (h.trans (Eq.symm faithful)), decide_eq_true literal⟩

/-- An expression with the same layout, which is the same tree if the other one is faithful. -/
structure Expression.CopyOf (copy e : Expression) : Prop where
  layout : Layout.expression copy = Layout.expression e
  parenthesized : copy.parenthesized = e.parenthesized
  alike : e.Faithful → copy.alike e = true

structure Block.CopyOf (copy b : Block) : Prop where
  layout : Layout.block copy = Layout.block b
  alike : b.Faithful → copy.alike b = true

structure Statement.CopyOf (copy s : Statement) : Prop where
  layout : Layout.statement copy = Layout.statement s
  alike : s.Faithful → copy.alike s = true

end LittleScript

import LittleScript.Proofs.Grammar.Completeness
import LittleScript.Proofs.Layout.Derivation
import LittleScript.Proofs.Layout.Parsed
import LittleScript.Proofs.Layout.Writable

/-!
Parsing undoes writing, as long as the canonical layout does not need more levels than there are.
-/

namespace LittleScript

/-- The canonical text of a program that can be written derives the program again. -/
private theorem Program.derives_render (p : Program) (writable : p.Writable) :
    ∃ copy : Program, Layout.program copy = Layout.program p ∧ (p.Faithful → copy.alike p = true) ∧
      Grammar.Derives (.statements false copy) (TokenStream.ofText p.render).tokens p.need := by
  have read := TokenStream.spelling_ofText (Layout.apart_program p writable.legible)
  have spelled : Spells (TokenStream.ofText p.render).tokens (Layout.spaced p) :=
    read.trans (Layout.words_spaced p).symm
  obtain ⟨copies, -, same, alike, -, derived⟩ := Layout.readsStatements p writable _ spelled
  exact ⟨copies, same, alike, derived false⟩

/-- The canonical text of a program is parsed to that program, apart from places. If it needs more
levels than there are, that is reported instead. -/
theorem parse_render (p : Program) (writable : p.Writable) (faithful : p.Faithful) :
    (p.need ≤ levelLimit →
      (parse p.render).diagnostics = [] ∧ (parse p.render).program.alike p = true) ∧
    (levelLimit < p.need →
      ∃ d ∈ (parse p.render).diagnostics, d.cause = .nestingTooDeep levelLimit) := by
  obtain ⟨copy, -, alike, derived⟩ := p.derives_render writable
  obtain ⟨fits, exceeds⟩ := @Grammar.ofStream_of_derives levelLimit _ _ _ derived
  refine ⟨fun le => ?_, exceeds⟩
  obtain ⟨same, silent⟩ := fits le
  refine ⟨silent, ?_⟩
  have program : (parse p.render).program = copy := same
  rw [program]
  exact alike faithful

def sample : Program :=
  let sign (kind : Kind) : Token := ⟨kind, kind.symbol, Location.start⟩
  let named (text : String) : Name := ⟨⟨.identifier, text, Location.start⟩, text⟩
  let number (value : Nat) : Expression := .integer ⟨.integer, toString value, Location.start⟩ value
  [.conditional (sign .ifWord) (.unary (sign .bang) .bang (.name (named "ready")))
    (.braced (sign .leftBrace) [.assignment (named "x").token (named "x")
      (.call (sign .leftParen) (.name (named "next")) [.name (named "x"), number 10])]) none,
   .binding (sign .letWord) (named "y") (.unary (sign .minus) .minus (number 5))]

/-- The sample is written, read and written again. -/
theorem parse_render_sample :
    sample.render = "if (!ready) { x = next(x, 10); }let y = (-5);" ∧
    (parse sample.render).diagnostics = [] ∧ (parse sample.render).program.alike sample = true := by
  have writable : sample.Writable := by decide
  have faithful : sample.Faithful := by decide
  exact ⟨by decide +kernel, (parse_render sample writable faithful).1 (by decide)⟩

/-- The canonical text of a parsed program is read back if it needs no more levels than there are, and
reported otherwise. -/
private theorem reparse_of_need (text : String) :
    ((parse text).program.need ≤ levelLimit →
      (parse (parse text).program.render).diagnostics = [] ∧
        (parse (parse text).program.render).program.render = (parse text).program.render) ∧
    (levelLimit < (parse text).program.need →
      (parse (parse text).program.render).diagnostics ≠ []) := by
  obtain ⟨copy, same, -, derived⟩ := (parse text).program.derives_render (parse_writable text)
  obtain ⟨fits, exceeds⟩ := @Grammar.ofStream_of_derives levelLimit _ _ _ derived
  constructor
  · intro le
    obtain ⟨read, silent⟩ := fits le
    have program : (parse (parse text).program.render).program = copy := read
    refine ⟨silent, ?_⟩
    rw [program, Program.render, same]
    rfl
  · intro deep silent
    obtain ⟨d, mem, -⟩ := exceeds deep
    have none : (Parsed.ofStream levelLimit (.ofText (parse text).program.render)).diagnostics = [] := silent
    rw [none] at mem
    cases mem

/-- The canonical text of a parsed program is accepted and stays the same when it is written again
exactly if the levels of its parentheses suffice. The parsed text may have been malformed anywhere. -/
theorem reparse_iff (text : String) :
    ((parse (parse text).program.render).diagnostics = [] ∧
      (parse (parse text).program.render).program.render = (parse text).program.render) ↔
    (parse text).program.need ≤ levelLimit := by
  obtain ⟨accepted, reported⟩ := reparse_of_need text
  constructor
  · rintro ⟨silent, -⟩
    by_cases le : (parse text).program.need ≤ levelLimit
    · exact le
    · exact absurd silent (reported (Nat.lt_of_not_le le))
  · exact accepted

def negated : String := "x = " ++ String.join (List.replicate 64 "!") ++ "a;"

/-- The operators stay far from the limit, but their canonical text opens two levels for each. -/
theorem negated_not_reparsed :
    (parse negated).diagnostics = [] ∧ (parse (parse negated).program.render).diagnostics ≠ [] := by
  have parsed : (parse negated).diagnostics = [] ∧ levelLimit < (parse negated).program.need := by
    decide +kernel
  exact ⟨parsed.1, (reparse_of_need negated).2 parsed.2⟩

end LittleScript

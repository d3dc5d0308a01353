import Mathlib.Data.List.Forall2
import Mathlib.Data.List.Nodup
import LittleScript.Proofs.Rule.Abreast.Nested
import LittleScript.Proofs.Run.Report

/-!
Two readers that have the same tokens left, apart from places. What is parsed of them is the same, and the
same is reported about tokens with the same index, whatever was read before and wherever the tokens stand.
-/

namespace LittleScript

open Run

/-- Distinct values are taken to any others, one by one, by a function. -/
private theorem exists_map_eq {α β : Type} [DecidableEq α] [Inhabited β] {as : List α} (distinct : as.Nodup)
    {bs : List β} (length : as.length = bs.length) : ∃ f : α → β, as.map f = bs := by
  induction as generalizing bs with
  | nil =>
    have none : bs = [] := List.length_eq_zero_iff.1 length.symm
    exact ⟨fun _ => default, none.symm⟩
  | cons a as ih =>
    obtain ⟨new, distinct⟩ := List.nodup_cons.1 distinct
    cases bs with
    | nil => cases length
    | cons b bs =>
      obtain ⟨f, rfl⟩ := ih distinct (Nat.succ.inj length)
      refine ⟨Function.update f a b, ?_⟩
      rw [List.map_cons, Function.update_self]
      refine congrArg (b :: ·) (List.map_congr_left fun c mem => ?_)
      exact Function.update_of_ne (ne_of_mem_of_not_mem mem new) b f

/-- Tokens that are spelled alike differ by a move of their places. -/
private theorem Token.map_relocate_eq {f : Location → Location} {as bs : List Token}
    (spelled : as.map Token.spelling = bs.map Token.spelling)
    (placed : as.map (fun token => f token.location) = bs.map Token.location) :
    as.map (Token.relocate f) = bs := by
  induction as generalizing bs with
  | nil => exact (List.map_eq_nil_iff.1 spelled.symm).symm
  | cons a as ih =>
    obtain ⟨b, others, rfl, spelling, spelled⟩ := List.map_eq_cons_iff.1 spelled.symm
    obtain ⟨place, placed⟩ := List.cons.inj placed
    obtain ⟨kind, literal⟩ := Prod.mk.inj spelling
    have first : a.relocate f = b := by
      obtain ⟨_, _, _⟩ := b
      subst kind literal place
      rfl
    rw [List.map_cons, first, ih spelled.symm placed]

namespace TokenStream

/-- The places are those of tokens with the same index. The end mark counts as a token. -/
def SamePlace (a b : TokenStream) (here there : Location) : Prop :=
  ∃ i : Nat, a.toList[i]?.map Token.location = some here ∧
    b.toList[i]?.map Token.location = some there

private def relocate (f : Location → Location) (stream : TokenStream) : TokenStream :=
  ⟨stream.tokens.map (Token.relocate f), f stream.finish⟩

private theorem toList_relocate (f : Location → Location) (stream : TokenStream) :
    (stream.relocate f).toList = stream.toList.map (Token.relocate f) := by
  rw [toList, toList, List.map_append]
  rfl

/-- Streams that are spelled alike differ by a move, if no two tokens of the first are at one place. -/
private theorem exists_relocate {a b : TokenStream} (distinct : (a.toList.map Token.location).Nodup)
    (same : a.tokens.map Token.spelling = b.tokens.map Token.spelling) :
    ∃ f, b = a.relocate f := by
  have length : a.tokens.length = b.tokens.length := by
    simpa only [List.length_map] using congrArg List.length same
  have whole : (a.toList.map Token.location).length = (b.toList.map Token.location).length := by
    simp only [toList, List.length_map, List.length_append, length, List.length_singleton]
  obtain ⟨f, moved⟩ := exists_map_eq distinct whole
  simp only [toList, List.map_append, List.map_singleton, List.map_map] at moved
  obtain ⟨places, last⟩ := List.append_inj moved (by rw [List.length_map, List.length_map, length])
  have finish : f a.finish = b.finish := (List.cons.inj last).1
  refine ⟨f, ?_⟩
  rw [relocate, Token.map_relocate_eq same places, finish]

/-- A token stands at the same index after the move. -/
private theorem samePlace_relocate (f : Location → Location) {stream : TokenStream} {token : Token}
    (mem : token ∈ stream.toList) :
    stream.SamePlace (stream.relocate f) token.location (f token.location) := by
  obtain ⟨i, there⟩ := List.mem_iff_getElem?.1 mem
  refine ⟨i, ?_, ?_⟩
  · rw [there]
    rfl
  · rw [toList_relocate, List.getElem?_map, there]
    rfl

end TokenStream

/-- The same cause. A place that it names is another one, in a relation to the first. -/
inductive Cause.Corresponds (same : Location → Location → Prop) : Cause → Cause → Prop where
  | unexpected {expected found} : Corresponds same (.unexpected expected found) (.unexpected expected found)
  | noExpression {found} : Corresponds same (.noExpression found) (.noExpression found)
  | integerTooLarge {literal} : Corresponds same (.integerTooLarge literal) (.integerTooLarge literal)
  | illegalCharacter {literal} : Corresponds same (.illegalCharacter literal) (.illegalCharacter literal)
  | unterminatedBlock {here there} (opened : same here there) :
      Corresponds same (.unterminatedBlock here) (.unterminatedBlock there)
  | nestingTooDeep {limit} : Corresponds same (.nestingTooDeep limit) (.nestingTooDeep limit)

structure Diagnostic.Corresponds (a b : TokenStream) (d e : Diagnostic) : Prop where
  cause : d.cause.Corresponds (a.SamePlace b) e.cause
  location : a.SamePlace b d.location e.location

/-- What is reported of a token, and of a brace in front of it, is reported again after a move. -/
private theorem Diagnostic.Truthful.corresponds {limit : Nat} {stream : TokenStream} {d : Diagnostic}
    (h : d.Truthful limit stream) (f : Location → Location) :
    d.Corresponds stream (stream.relocate f) (d.relocate f) := by
  obtain ⟨cause, location⟩ := d
  obtain ⟨token, mem, rfl, describes⟩ := h
  refine ⟨?_, TokenStream.samePlace_relocate f mem⟩
  cases describes with
  | unexpected => exact .unexpected
  | noExpression => exact .noExpression
  | integerTooLarge => exact .integerTooLarge
  | illegalCharacter => exact .illegalCharacter
  | unterminatedBlock left =>
    exact .unterminatedBlock (TokenStream.samePlace_relocate f (List.mem_append_left _ left))
  | nestingTooDeep => exact .nestingTooDeep

/-- A stream that is moved is parsed to the program that is moved, with the diagnostics moved. -/
private theorem Parsed.ofStream_relocate (limit : Nat) (f : Location → Location) (stream : TokenStream) :
    (ofStream limit (stream.relocate f)).program = (ofStream limit stream).program.relocate f ∧
      (ofStream limit (stream.relocate f)).diagnostics =
        (ofStream limit stream).diagnostics.map (Diagnostic.relocate f) := by
  let c : Surroundings := ⟨f, [], none⟩
  have beside : (State.start stream .empty).Beside c (State.start (stream.relocate f) .empty) :=
    ⟨(List.append_nil _).symm, fun _ => rfl, fun more => absurd rfl more, rfl, rfl⟩
  obtain ⟨found, reported⟩ := Rule.Abreast.sequenceFrom
    (fun _ _ beside => Rule.abreast_topStatement limit beside) rfl (fun _ => false) [] [] beside
  exact ⟨found, reported.diagnostics⟩

/-- Two readers with the same tokens left, apart from places, are parsed to the same program, and the same
is reported about tokens with the same index. -/
theorem parse_of_spelling (a b : Lexer)
    (same : (TokenStream.ofLexer a).tokens.map Token.spelling =
      (TokenStream.ofLexer b).tokens.map Token.spelling) :
    (Parsed.ofStream levelLimit (.ofLexer a)).program.alike
        (Parsed.ofStream levelLimit (.ofLexer b)).program = true ∧
      List.Forall₂ (Diagnostic.Corresponds (.ofLexer a) (.ofLexer b))
        (Parsed.ofStream levelLimit (.ofLexer a)).diagnostics
        (Parsed.ofStream levelLimit (.ofLexer b)).diagnostics := by
  have distinct : ((TokenStream.ofLexer a).toList.map Token.location).Nodup :=
    List.pairwise_map.2 ((TokenStream.ordered_ofLexer a).imp ne_of_lt)
  obtain ⟨f, moved⟩ := TokenStream.exists_relocate distinct same
  rw [moved]
  obtain ⟨program, diagnostics⟩ := Parsed.ofStream_relocate levelLimit f (.ofLexer a)
  rw [program, diagnostics]
  refine ⟨Program.alike_relocate f _, List.forall₂_map_right_iff.2 (List.forall₂_same.2 ?_)⟩
  intro d mem
  exact (Parsed.truthful_ofStream levelLimit (.ofLexer a) d mem).corresponds f

/-- A reader that has already taken a keyword, and stands in front of other blanks, has the same tokens
left as one at the start of a text. -/
theorem parse_of_spelling_taken :
    let first := Lexer.ofText "if(a)\x7bb=;c=1;"
    let second := (Lexer.ofText "let if\n( a ) \x7b\n b\n= ; c = 1\n;").nextToken.2
    (Parsed.ofStream levelLimit (.ofLexer first)).program.alike
        (Parsed.ofStream levelLimit (.ofLexer second)).program = true ∧
      List.Forall₂ (Diagnostic.Corresponds (.ofLexer first) (.ofLexer second))
        [⟨.noExpression .semicolon, ⟨1, 9⟩⟩, ⟨.unterminatedBlock ⟨1, 6⟩, ⟨1, 14⟩⟩]
        [⟨.noExpression .semicolon, ⟨4, 3⟩⟩, ⟨.unterminatedBlock ⟨2, 7⟩, ⟨5, 2⟩⟩] := by
  intro first second
  have same : (TokenStream.ofLexer first).tokens.map Token.spelling =
      (TokenStream.ofLexer second).tokens.map Token.spelling := by decide +kernel
  obtain ⟨program, diagnostics⟩ := parse_of_spelling first second same
  have reported : (Parsed.ofStream levelLimit (.ofLexer first)).diagnostics =
      [⟨.noExpression .semicolon, ⟨1, 9⟩⟩, ⟨.unterminatedBlock ⟨1, 6⟩, ⟨1, 14⟩⟩] := by decide +kernel
  have reported' : (Parsed.ofStream levelLimit (.ofLexer second)).diagnostics =
      [⟨.noExpression .semicolon, ⟨4, 3⟩⟩, ⟨.unterminatedBlock ⟨2, 7⟩, ⟨5, 2⟩⟩] := by decide +kernel
  rw [reported, reported'] at diagnostics
  exact ⟨program, diagnostics⟩

end LittleScript

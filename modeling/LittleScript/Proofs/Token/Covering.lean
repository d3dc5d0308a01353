import Mathlib.Data.List.Induction
import LittleScript.Proofs.Token.Boundary

/-!
The tokens of a text and the blanks between them are the whole text, and each token says where it stands.
-/

namespace LittleScript

namespace Location

/-- The place of the character at an offset: a line for each line feed in front of it, a column for each
character between the last of these and it. -/
def ofOffset (text : List Char) (offset : Nat) : Location :=
  ⟨1 + (text.take offset).count '\n', 1 + ((text.take offset).reverse.takeWhile (· ≠ '\n')).length⟩

/-- A line feed starts the columns again. -/
private theorem column_after_start (text : List Char) :
    (start.after text).column = 1 + (text.reverse.takeWhile (· ≠ '\n')).length := by
  induction text using List.reverseRecOn with
  | nil => rfl
  | append_singleton text c ih =>
    rw [after_append, after_cons, after_nil, next, List.reverse_append, List.reverse_singleton,
      List.singleton_append]
    by_cases feed : c = '\n'
    · rw [if_pos feed, List.takeWhile_cons_of_neg (by simpa using feed)]
      rfl
    · rw [if_neg feed, List.takeWhile_cons_of_pos (by simpa using feed), List.length_cons, ih]
      rfl

/-- A place that is reached character by character is the place of the offset. -/
private theorem after_start (front back : List Char) :
    start.after front = ofOffset (front ++ back) front.length := by
  rw [ofOffset, List.take_left, ← column_after_start]
  exact congrArg (Location.mk · _) (line_after start front)

end Location

structure Placed where
  offset : Nat
  token : Token
  deriving DecidableEq, Repr

namespace Placed

def stop (placed : Placed) : Nat := placed.offset + placed.token.literal.toList.length

/-- The text has the literal at the offset, and the token says that it stands there. -/
structure Stands (text : List Char) (placed : Placed) : Prop where
  literal : placed.token.literal.toList =
    (text.drop placed.offset).take placed.token.literal.toList.length
  location : placed.token.location = Location.ofOffset text placed.offset

/-- The stretches in front of each token from `past` on, and the one from the last to the finish. -/
def stretches (past : Nat) (tokens : List Placed) (finish : Nat) : List (Nat × Nat) :=
  (past :: tokens.map stop).zip (tokens.map offset ++ [finish])

private theorem stretches_cons (past : Nat) (first : Placed) (others : List Placed) (finish : Nat) :
    stretches past (first :: others) finish =
      (past, first.offset) :: stretches first.stop others finish := rfl

end Placed

def BlankBetween (text : List Char) (past offset : Nat) : Prop :=
  past ≤ offset ∧ ∀ c ∈ (text.take offset).drop past, isBlank c = true

/-- From the offset `past` on the text consists of the tokens and of blanks. -/
structure Covers (text : List Char) (past : Nat) (tokens : List Placed) : Prop where
  increasing : (tokens.map Placed.offset).Pairwise (· < ·)
  stands : ∀ placed ∈ tokens, placed.Stands text
  blank : ∀ stretch ∈ Placed.stretches past tokens text.length, BlankBetween text stretch.1 stretch.2

section
variable {text : List Char} {past : Nat} {first : Placed} {tokens : List Placed}

private theorem blankBetween_append {front blanks : List Char} (blank : ∀ c ∈ blanks, isBlank c = true)
    (back : List Char) :
    BlankBetween (front ++ (blanks ++ back)) front.length (front.length + blanks.length) := by
  refine ⟨Nat.le_add_right _ _, ?_⟩
  rwa [List.take_length_add_append, List.drop_left, List.take_left]

private theorem covers_nil (blank : BlankBetween text past text.length) : Covers text past [] :=
  ⟨List.Pairwise.nil, fun _ none => absurd none List.not_mem_nil, by simpa [Placed.stretches] using blank⟩

namespace Covers

private theorem past_le (covers : Covers text past tokens) : ∀ placed ∈ tokens, past ≤ placed.offset := by
  intro placed mem
  cases tokens with
  | nil => exact absurd mem List.not_mem_nil
  | cons first others =>
    have reached : past ≤ first.offset := (covers.blank _ List.mem_cons_self).1
    obtain rfl | behind := List.mem_cons.1 mem
    · exact reached
    · have later := List.rel_of_pairwise_cons covers.increasing (List.mem_map_of_mem behind)
      exact reached.trans (Nat.le_of_lt later)

private theorem cons (blank : BlankBetween text past first.offset) (proper : first.token.literal.toList ≠ [])
    (stands : first.Stands text) (others : Covers text first.stop tokens) :
    Covers text past (first :: tokens) where
  increasing := by
    rw [List.map_cons, List.pairwise_cons]
    refine ⟨fun offset mem => ?_, others.increasing⟩
    obtain ⟨placed, behind, rfl⟩ := List.mem_map.1 mem
    have taken : first.offset < first.stop := Nat.lt_add_of_pos_right (List.length_pos_iff.2 proper)
    exact Nat.lt_of_lt_of_le taken (others.past_le placed behind)
  stands := List.forall_mem_cons.2 ⟨stands, others.stands⟩
  blank := by
    rw [Placed.stretches_cons]
    exact List.forall_mem_cons.2 ⟨blank, others.blank⟩

end Covers

end

namespace Lexer
variable {lexer after : Lexer} {token : Token}

/-- A step takes blanks and the literal of its token off the text. -/
theorem taken_of_token? (h : lexer.token? = some (token, after)) :
    ∃ blanks, (∀ c ∈ blanks, isBlank c = true) ∧ token.literal.toList ≠ [] ∧
      lexer.rest = blanks ++ (token.literal.toList ++ after.rest) ∧
      token.location = lexer.location.after blanks ∧
      after.location = lexer.location.after (blanks ++ token.literal.toList) := by
  obtain ⟨c, rest, settled, rfl, rfl⟩ := settled_of_token? h
  have settled : lexer.rest.dropWhile isBlank = c :: rest := settled
  refine ⟨lexer.rest.takeWhile isBlank, List.all_eq_true.1 List.all_takeWhile, ?_, ?_, rfl, ?_⟩
  · rw [String.toList_ofList]
    exact Lexeme.first_taken_ne_nil c rest
  · rw [String.toList_ofList, Lexeme.first_taken_append_rest, ← settled, List.takeWhile_append_dropWhile]
  · rw [String.toList_ofList, Location.after_append]
    rfl

/-- A reader that is where its location says collects tokens that cover the rest of its text. -/
private theorem covers_collect {text front : List Char} (lexer : Lexer) (found : List Token)
    (whole : text = front ++ lexer.rest) (place : lexer.location = Location.start.after front) :
    ∃ tokens, Covers text front.length tokens ∧
      (lexer.collect found).1 = found.reverse ++ tokens.map Placed.token := by
  -- What has been read, `front`, grows with each step. The whole text stays the same.
  fun_induction collect lexer found generalizing front with
  | case1 lexer found ended =>
    have blank : ∀ c ∈ lexer.rest, isBlank c = true := List.dropWhile_eq_nil_iff.1 (token?_eq_none.1 ended)
    have left := @blankBetween_append front lexer.rest blank []
    rw [List.append_nil, ← List.length_append, ← whole] at left
    exact ⟨[], covers_nil left, (List.append_nil _).symm⟩
  | case2 lexer found token after read ih =>
    obtain ⟨blanks, blank, proper, rest, location, behind⟩ := taken_of_token? read
    have settled : text = front ++ blanks ++ (token.literal.toList ++ after.rest) := by
      rw [whole, rest, List.append_assoc]
    have passed : text = front ++ (blanks ++ token.literal.toList) ++ after.rest := by
      rw [settled]
      simp only [List.append_assoc]
    obtain ⟨tokens, covers, collected⟩ := ih passed (by rw [behind, place, ← Location.after_append])
    let here : Placed := ⟨(front ++ blanks).length, token⟩
    have stop : here.stop = (front ++ (blanks ++ token.literal.toList)).length := by
      simp only [Placed.stop, here, List.length_append, Nat.add_assoc]
    have stands : here.Stands text := by
      constructor
      · rw [settled, List.drop_left, List.take_left]
      · rw [settled, ← Location.after_start, Location.after_append, ← place]
        exact location
    refine ⟨here :: tokens, Covers.cons ?_ proper stands (stop ▸ covers), ?_⟩
    · rw [whole, rest]
      simpa only [here, List.length_append] using blankBetween_append blank _
    · rw [collected, List.reverse_cons, List.map_cons, List.append_assoc]
      rfl

end Lexer

/-- The reader loses nothing and its locations are exact. The tokens of a text stand one behind the other
at offsets where the text has their literals. There are only blanks between them, in front of the first
and behind the last. The end mark is empty and stands at the end. -/
theorem TokenStream.covers_ofText (text : String) :
    ∃ tokens, Covers text.toList 0 tokens ∧
      (ofText text).toList = tokens.map Placed.token ++
        [⟨.endOfInput, "", Location.ofOffset text.toList text.toList.length⟩] := by
  obtain ⟨tokens, covers, collected⟩ :=
    @Lexer.covers_collect text.toList [] (Lexer.ofText text) [] rfl rfl
  refine ⟨tokens, covers, ?_⟩
  have finish := finish_ofText text
  rw [Location.after_start text.toList [], List.append_nil] at finish
  rw [toList, finish]
  exact congrArg (· ++ _) collected

end LittleScript

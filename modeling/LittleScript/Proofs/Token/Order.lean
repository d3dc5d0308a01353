import Mathlib.Data.List.Nodup
import LittleScript.Proofs.Source.Order
import LittleScript.Proofs.Token.Collecting

/-!
The tokens of a text follow each other in reading order, and the end mark follows them all.
-/

namespace LittleScript

namespace Lexer

private theorem le_settle (lexer : Lexer) : lexer.location ≤ lexer.settle.location :=
  Location.le_after _ _

/-- A token proper starts where the reader has settled and ends in front of the next one. -/
private theorem location_of_token? {lexer : Lexer} {token : Token} {after : Lexer}
    (h : lexer.token? = some (token, after)) :
    lexer.location ≤ token.location ∧ token.location < after.location := by
  obtain ⟨c, rest, -, rfl, rfl⟩ := settled_of_token? h
  exact ⟨lexer.le_settle, Location.lt_after _ (Lexeme.first_taken_ne_nil c rest)⟩

/-- The tokens that are collected stay in order if those found before are in front of the reader. -/
private theorem ordered_collect {lexer : Lexer} {found : List Token}
    (order : found.reverse.Pairwise fun a b => a.location < b.location)
    (before : ∀ token ∈ found, token.location < lexer.location) :
    (lexer.collect found).1.Pairwise (fun a b => a.location < b.location) ∧
      ∀ token ∈ (lexer.collect found).1, token.location < (lexer.collect found).2.location := by
  fun_induction collect lexer found with
  | case1 lexer found ended =>
    refine ⟨order, fun token mem => ?_⟩
    exact lt_of_lt_of_le (before token (List.mem_reverse.1 mem)) lexer.le_settle
  | case2 lexer found token after read ih =>
    obtain ⟨settled, passed⟩ := location_of_token? read
    have inFront : ∀ other ∈ found, other.location < token.location :=
      fun other mem => lt_of_lt_of_le (before other mem) settled
    apply ih
    · rw [List.reverse_cons, List.pairwise_append]
      refine ⟨order, List.pairwise_singleton _ _, fun other mem last only => ?_⟩
      obtain rfl := List.mem_singleton.1 only
      exact inFront other (List.mem_reverse.1 mem)
    · intro other mem
      obtain rfl | mem := List.mem_cons.1 mem
      · exact passed
      · exact lt_trans (inFront other mem) passed

end Lexer

namespace TokenStream

/-- The tokens that a reader has left stand in reading order, and the end mark stands behind the last. -/
theorem ordered_ofLexer (lexer : Lexer) :
    (ofLexer lexer).toList.Pairwise fun a b => a.location < b.location := by
  obtain ⟨order, before⟩ := @Lexer.ordered_collect lexer [] .nil
    fun _ none => absurd none List.not_mem_nil
  refine List.pairwise_append.2 ⟨order, List.pairwise_singleton _ _, fun token mem mark only => ?_⟩
  obtain rfl := List.mem_singleton.1 only
  exact before token mem

/-- The tokens of a text stand in reading order. -/
theorem ordered_toList (text : String) :
    (ofText text).toList.Pairwise fun a b => a.location < b.location :=
  ordered_ofLexer (Lexer.ofText text)

/-- Tokens of a text that stand at the same place are the same. -/
theorem eq_of_location {text : String} {a b : Token} (first : a ∈ (ofText text).toList)
    (second : b ∈ (ofText text).toList) (same : a.location = b.location) : a = b := by
  have places : ((ofText text).toList.map Token.location).Nodup :=
    List.pairwise_map.2 ((ordered_toList text).imp ne_of_lt)
  exact List.inj_on_of_nodup_map places first second same

/-- No token of a text stands twice. -/
theorem nodup_tokens (text : String) : (ofText text).tokens.Nodup := by
  refine (List.pairwise_append.1 (ordered_toList text)).1.imp ?_
  rintro a b before rfl
  exact lt_irrefl _ before

end TokenStream
end LittleScript

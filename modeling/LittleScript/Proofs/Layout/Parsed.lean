import LittleScript.Proofs.Rule.Building.Nested

/-!
Whatever is parsed can be written down, also next to errors: a tree of well-formed nodes has words for
names, numbers that fit and keywords where they are due.
-/

namespace LittleScript

private theorem Token.Denotes.writable {token : Token} {value : Int} (h : token.Denotes value) :
    0 ≤ value ∧ value ≤ Numeral.largest := by
  rw [h.value]
  exact ⟨Int.natCast_nonneg _, Int.ofNat_le.2 h.fits⟩

/-- The names among the nodes are those that were put there. -/
private theorem names_writable {names : List Name} (h : AllWellFormed (names.map Node.name)) :
    ∀ name ∈ names, name.Writable := fun _ mem => (h _ (List.mem_map_of_mem mem)).2

mutual

private theorem Expression.writable_of_wellFormed : (e : Expression) → e.WellFormed → e.Writable
  | .name _, h => (List.forall_mem_singleton.1 h).2
  | .integer _ _, h => (List.forall_mem_singleton.1 h).writable
  | .boolean _ _, _ => trivial
  | .unary _ _ operand, h => operand.writable_of_wellFormed (List.forall_mem_cons.1 h).2
  | .binary _ _ left right, h =>
    have ⟨first, second⟩ := List.forall_mem_append.1 (List.forall_mem_cons.1 h).2
    ⟨left.writable_of_wellFormed first, right.writable_of_wellFormed second⟩
  | .call _ callee arguments, h =>
    have ⟨first, all⟩ := List.forall_mem_append.1 (List.forall_mem_cons.1 h).2
    ⟨callee.writable_of_wellFormed first, Expression.allWritable_of_wellFormed arguments all⟩
  | .function _ _ body, h =>
    have ⟨keyword, parts⟩ := List.forall_mem_cons.1 h
    have ⟨names, block⟩ := List.forall_mem_append.1 parts
    ⟨keyword, names_writable names, body.writable_of_wellFormed block⟩

private theorem Expression.allWritable_of_wellFormed :
    (es : List Expression) → AllWellFormed (Expression.allNodes es) → Expression.AllWritable es
  | [], _ => trivial
  | e :: es, h =>
    have ⟨first, rest⟩ := List.forall_mem_append.1 h
    ⟨e.writable_of_wellFormed first, Expression.allWritable_of_wellFormed es rest⟩

private theorem Block.writable_of_wellFormed : (b : Block) → b.WellFormed → b.Writable
  | .braced _ body, h => Statement.allWritable_of_wellFormed body (List.forall_mem_cons.1 h).2

private theorem Block.optionWritable_of_wellFormed :
    (other : Option Block) → AllWellFormed (Block.anyNodes other) → Block.OptionWritable other
  | none, _ => trivial
  | some other, h => other.writable_of_wellFormed h

private theorem Statement.allWritable_of_wellFormed :
    (body : List Statement) → AllWellFormed (Statement.allNodes body) → Statement.AllWritable body
  | [], _ => trivial
  | s :: rest, h =>
    have ⟨first, others⟩ := List.forall_mem_append.1 h
    ⟨s.writable_of_wellFormed first, Statement.allWritable_of_wellFormed rest others⟩

private theorem Statement.writable_of_wellFormed : (s : Statement) → s.WellFormed → s.Writable
  | .binding _ _ value, h =>
    have ⟨keyword, parts⟩ := List.forall_mem_cons.1 h
    have ⟨name, right⟩ := List.forall_mem_cons.1 parts
    ⟨keyword, name.2, value.writable_of_wellFormed right⟩
  | .answer _ value, h =>
    have ⟨keyword, right⟩ := List.forall_mem_cons.1 h
    ⟨keyword, value.writable_of_wellFormed right⟩
  | .assignment _ _ value, h =>
    have ⟨name, right⟩ := List.forall_mem_cons.1 (List.forall_mem_cons.1 h).2
    ⟨name.2, value.writable_of_wellFormed right⟩
  | .conditional _ guard consequence other, h =>
    have ⟨parts, otherwise⟩ := List.forall_mem_append.1 (List.forall_mem_cons.1 h).2
    have ⟨test, block⟩ := List.forall_mem_append.1 parts
    ⟨guard.writable_of_wellFormed test, consequence.writable_of_wellFormed block,
      Block.optionWritable_of_wellFormed other otherwise⟩
  | .function _ _ body, h =>
    have ⟨keyword, parts⟩ := List.forall_mem_cons.1 h
    have ⟨names, block⟩ := List.forall_mem_append.1 parts
    ⟨keyword, names_writable names, body.writable_of_wellFormed block⟩

end

/-- The program of a parsed text can be written, whatever was reported. -/
theorem parse_writable (text : String) : (parse text).program.Writable :=
  Statement.allWritable_of_wellFormed _
    (Statement.allNodes_wellFormed (Parsed.wellFormed_ofStream levelLimit text))

end LittleScript

import LittleScript.Proofs.Syntax.Node

/-!
The numbers of a tree, each with its token, in the order in which they stand.
-/

namespace LittleScript

def Node.numbers (nodes : List Node) : List (Token × Int) := nodes.filterMap Node.number?

def Expression.numbers (e : Expression) : List (Token × Int) := Node.numbers e.nodes

def Block.numbers (b : Block) : List (Token × Int) := Node.numbers b.nodes

def Block.anyNumbers (other : Option Block) : List (Token × Int) := Node.numbers (Block.anyNodes other)

def Statement.numbers (s : Statement) : List (Token × Int) := Node.numbers s.nodes

def Program.numbers (program : Program) : List (Token × Int) := Node.numbers program.nodes

theorem Node.mem_numbers {nodes : List Node} {token : Token} {value : Int} :
    (token, value) ∈ numbers nodes ↔ .expression (.integer token value) ∈ nodes := by
  rw [numbers, List.mem_filterMap]
  constructor
  · rintro ⟨node, mem, number⟩
    exact Node.eq_of_number? number ▸ mem
  · exact fun mem => ⟨_, mem, rfl⟩

private theorem Node.numbers_append (front back : List Node) :
    numbers (front ++ back) = numbers front ++ numbers back :=
  List.filterMap_append

/-- Names are no numbers. -/
private theorem Node.numbers_names (names : List Name) : numbers (names.map Node.name) = [] := by
  rw [numbers, List.filterMap_eq_nil_iff]
  intro node mem
  obtain ⟨name, -, rfl⟩ := List.mem_map.1 mem
  rfl

namespace Expression

theorem numbers_binary (token : Token) (operator : BinaryOperator) (left right : Expression) :
    (binary token operator left right).numbers = left.numbers ++ right.numbers := Node.numbers_append _ _

private theorem numbers_allNodes (es : List Expression) : Node.numbers (allNodes es) = es.flatMap numbers := by
  induction es with
  | nil => rfl
  | cons e es ih => rw [allNodes, Node.numbers_append, ih, List.flatMap_cons, numbers]

theorem numbers_call (token : Token) (callee : Expression) (arguments : List Expression) :
    (call token callee arguments).numbers = callee.numbers ++ arguments.flatMap numbers :=
  (Node.numbers_append _ _).trans (congrArg (callee.numbers ++ ·) (numbers_allNodes arguments))

theorem numbers_function (token : Token) (parameters : List Name) (body : Block) :
    (function token parameters body).numbers = body.numbers :=
  (Node.numbers_append _ _).trans (congrArg (· ++ body.numbers) (Node.numbers_names parameters))

end Expression

namespace Statement

theorem numbers_allNodes (body : List Statement) : Node.numbers (allNodes body) = body.flatMap numbers := by
  induction body with
  | nil => rfl
  | cons s body ih => rw [allNodes, Node.numbers_append, ih, List.flatMap_cons, numbers]

theorem numbers_conditional (token : Token) (guard : Expression) (consequence : Block) (other : Option Block) :
    (conditional token guard consequence other).numbers =
      guard.numbers ++ consequence.numbers ++ Block.anyNumbers other :=
  (Node.numbers_append _ _).trans (congrArg (· ++ Block.anyNumbers other) (Node.numbers_append _ _))

theorem numbers_function (token : Token) (parameters : List Name) (body : Block) :
    (function token parameters body).numbers = body.numbers :=
  (Node.numbers_append _ _).trans (congrArg (· ++ body.numbers) (Node.numbers_names parameters))

end Statement

theorem Block.numbers_braced (token : Token) (body : List Statement) :
    (braced token body).numbers = body.flatMap Statement.numbers := Statement.numbers_allNodes body

end LittleScript

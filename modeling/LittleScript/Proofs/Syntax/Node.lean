import LittleScript.Proofs.Syntax.Canonical

/-!
All nodes of a tree, and what each of them has to keep of its token. Of a number the token may be any
numeral, also one that starts with zeros; every other token is the only one that its node can have.
-/

namespace LittleScript

/-- A node of a tree. Names are nodes of their own where they are bound or assigned to. -/
inductive Node where
  | name (name : Name)
  | expression (tree : Expression)
  | block (tree : Block)
  | statement (tree : Statement)

mutual

def Expression.nodes : Expression → List Node
  | .name name => [.expression (.name name)]
  | .integer token value => [.expression (.integer token value)]
  | .boolean token value => [.expression (.boolean token value)]
  | .unary token operator operand => .expression (.unary token operator operand) :: operand.nodes
  | .binary token operator left right =>
    .expression (.binary token operator left right) :: (left.nodes ++ right.nodes)
  | .call token callee arguments =>
    .expression (.call token callee arguments) :: (callee.nodes ++ Expression.allNodes arguments)
  | .function token parameters body =>
    .expression (.function token parameters body) :: (parameters.map Node.name ++ body.nodes)

def Expression.allNodes : List Expression → List Node
  | [] => []
  | e :: es => e.nodes ++ Expression.allNodes es

def Block.nodes : Block → List Node
  | .braced token body => .block (.braced token body) :: Statement.allNodes body

def Block.anyNodes : Option Block → List Node
  | none => []
  | some other => other.nodes

def Statement.allNodes : List Statement → List Node
  | [] => []
  | s :: rest => s.nodes ++ Statement.allNodes rest

def Statement.nodes : Statement → List Node
  | .binding token name value =>
    .statement (.binding token name value) :: .name name :: value.nodes
  | .answer token value => .statement (.answer token value) :: value.nodes
  | .assignment token name value =>
    .statement (.assignment token name value) :: .name name :: value.nodes
  | .conditional token guard consequence other =>
    .statement (.conditional token guard consequence other) ::
      (guard.nodes ++ consequence.nodes ++ Block.anyNodes other)
  | .function token parameters body =>
    .statement (.function token parameters body) :: (parameters.map Node.name ++ body.nodes)

end

def Program.nodes (program : Program) : List Node := Statement.allNodes program

def Node.number? : Node → Option (Token × Int)
  | .expression (.integer token value) => some (token, value)
  | .expression (.name _) | .expression (.boolean _ _) | .expression (.unary _ _ _)
  | .expression (.binary _ _ _ _) | .expression (.call _ _ _) | .expression (.function _ _ _)
  | .name _ | .block _ | .statement _ => none

theorem Node.eq_of_number? {node : Node} {token : Token} {value : Int}
    (h : node.number? = some (token, value)) : node = .expression (.integer token value) := by
  unfold number? at h
  split at h
  · obtain ⟨rfl, rfl⟩ := Prod.mk.inj (Option.some.inj h)
    rfl
  all_goals cases h

/-- The name has its token's literal as text, and that is a word that is not reserved. -/
def Name.WellFormed (name : Name) : Prop := name.Faithful ∧ name.Writable

/-- The token is a numeral in decimal digits for the value, which is not too large. -/
structure Token.Denotes (token : Token) (value : Int) : Prop where
  kind : token.kind = .integer
  proper : token.literal ≠ ""
  digits : ∀ c ∈ token.literal.toList, c.isDigit = true
  value : value = Numeral.value token.literal.toList
  fits : Numeral.value token.literal.toList ≤ Numeral.largest

def Node.WellFormed : Node → Prop
  | .name word | .expression (.name word) => word.WellFormed
  | .expression (.integer token value) => token.Denotes value
  | .expression (.boolean token value) => token.Plain (if value then .trueWord else .falseWord)
  | .expression (.unary token operator _) => token.Plain operator.kind
  | .expression (.binary token operator _ _) => token.Plain operator.kind
  | .expression (.call token _ _) => token.Plain .leftParen
  | .expression (.function token _ _) => token.Plain .fnWord
  | .block (.braced token _) => token.Plain .leftBrace
  | .statement (.binding token _ _) => token.Plain .letWord
  | .statement (.answer token _) => token.Plain .returnWord
  | .statement (.assignment token target _) => token = target.token
  | .statement (.conditional token _ _ _) => token.Plain .ifWord
  | .statement (.function token _ _) => token.Plain .fnWord

/-- What the node says by itself can be read off its layout: names are words that are not reserved, numbers
have no sign, and keywords are spelled as they always are. -/
def Node.Legible : Node → Prop
  | .name word | .expression (.name word) => word.Writable
  | .expression (.integer _ value) => 0 ≤ value
  | .expression (.function token _ _) | .statement (.function token _ _) => token.Plain .fnWord
  | .statement (.binding token _ _) => token.Plain .letWord
  | .statement (.answer token _) => token.Plain .returnWord
  | .expression (.boolean _ _) | .expression (.unary _ _ _) | .expression (.binary _ _ _ _)
  | .expression (.call _ _ _) | .block _ | .statement (.assignment _ _ _)
  | .statement (.conditional _ _ _ _) => True

abbrev AllLegible (nodes : List Node) : Prop := ∀ node ∈ nodes, node.Legible

def Program.Legible (program : Program) : Prop := AllLegible program.nodes

private theorem allLegible_cons {node : Node} {nodes : List Node} (first : node.Legible) (rest : AllLegible nodes) :
    AllLegible (node :: nodes) := List.forall_mem_cons.2 ⟨first, rest⟩

theorem legible_first {node : Node} {nodes : List Node} (h : AllLegible (node :: nodes)) : node.Legible :=
  h node List.mem_cons_self

private theorem allLegible_append {front back : List Node} (first : AllLegible front) (second : AllLegible back) :
    AllLegible (front ++ back) := List.forall_mem_append.2 ⟨first, second⟩

private theorem allLegible_names {names : List Name} (h : ∀ name ∈ names, name.Writable) :
    AllLegible (names.map Node.name) := by
  intro node mem
  obtain ⟨name, there, rfl⟩ := List.mem_map.1 mem
  exact h name there

/-- The names among the nodes are those that were put there. -/
theorem names_legible {names : List Name} (h : AllLegible (names.map Node.name)) :
    ∀ name ∈ names, name.Writable := fun _ mem => h _ (List.mem_map_of_mem mem)

mutual

/-- What can be written is legible. -/
private theorem Expression.legible_of_writable : (e : Expression) → e.Writable → AllLegible e.nodes
  | .name _, h => List.forall_mem_singleton.2 h
  | .integer _ _, h => List.forall_mem_singleton.2 h.1
  | .boolean _ _, _ => List.forall_mem_singleton.2 trivial
  | .unary _ _ operand, h => allLegible_cons trivial (operand.legible_of_writable h)
  | .binary _ _ left right, h =>
    allLegible_cons trivial (allLegible_append (left.legible_of_writable h.1) (right.legible_of_writable h.2))
  | .call _ callee arguments, h =>
    allLegible_cons trivial
      (allLegible_append (callee.legible_of_writable h.1) (Expression.legible_of_allWritable arguments h.2))
  | .function _ _ body, h =>
    allLegible_cons h.1 (allLegible_append (allLegible_names h.2.1) (body.legible_of_writable h.2.2))

private theorem Expression.legible_of_allWritable :
    (es : List Expression) → Expression.AllWritable es → AllLegible (Expression.allNodes es)
  | [], _ => fun _ none => absurd none List.not_mem_nil
  | e :: es, h => allLegible_append (e.legible_of_writable h.1) (Expression.legible_of_allWritable es h.2)

private theorem Block.legible_of_writable : (b : Block) → b.Writable → AllLegible b.nodes
  | .braced _ body, h => allLegible_cons trivial (Statement.legible_of_allWritable body h)

private theorem Block.legible_of_optionWritable :
    (other : Option Block) → Block.OptionWritable other → AllLegible (Block.anyNodes other)
  | none, _ => fun _ none => absurd none List.not_mem_nil
  | some other, h => other.legible_of_writable h

private theorem Statement.legible_of_allWritable :
    (body : List Statement) → Statement.AllWritable body → AllLegible (Statement.allNodes body)
  | [], _ => fun _ none => absurd none List.not_mem_nil
  | s :: rest, h => allLegible_append (s.legible_of_writable h.1) (Statement.legible_of_allWritable rest h.2)

private theorem Statement.legible_of_writable : (s : Statement) → s.Writable → AllLegible s.nodes
  | .binding _ _ value, h =>
    allLegible_cons h.1 (allLegible_cons h.2.1 (value.legible_of_writable h.2.2))
  | .answer _ value, h => allLegible_cons h.1 (value.legible_of_writable h.2)
  | .assignment _ _ value, h =>
    allLegible_cons trivial (allLegible_cons h.1 (value.legible_of_writable h.2))
  | .conditional _ guard consequence other, h =>
    allLegible_cons trivial (allLegible_append
      (allLegible_append (guard.legible_of_writable h.1) (consequence.legible_of_writable h.2.1))
      (Block.legible_of_optionWritable other h.2.2))
  | .function _ _ body, h =>
    allLegible_cons h.1 (allLegible_append (allLegible_names h.2.1) (body.legible_of_writable h.2.2))

end

theorem Program.Writable.legible {program : Program} (h : program.Writable) : program.Legible :=
  Statement.legible_of_allWritable program h

abbrev AllWellFormed (nodes : List Node) : Prop := ∀ node ∈ nodes, node.WellFormed

/-- A node on top of others. -/
theorem allWellFormed_cons {node : Node} {nodes : List Node} (first : node.WellFormed)
    (rest : AllWellFormed nodes) : AllWellFormed (node :: nodes) := List.forall_mem_cons.2 ⟨first, rest⟩

theorem allWellFormed_append {front back : List Node} (first : AllWellFormed front)
    (second : AllWellFormed back) : AllWellFormed (front ++ back) :=
  List.forall_mem_append.2 ⟨first, second⟩

theorem allWellFormed_names {names : List Name} (h : ∀ name ∈ names, name.WellFormed) :
    AllWellFormed (names.map Node.name) := by
  intro node mem
  obtain ⟨name, there, rfl⟩ := List.mem_map.1 mem
  exact h name there

theorem Expression.allNodes_wellFormed {es : List Expression} (h : ∀ e ∈ es, AllWellFormed e.nodes) :
    AllWellFormed (Expression.allNodes es) := by
  induction es with
  | nil => exact fun _ none => absurd none List.not_mem_nil
  | cons e es ih =>
    obtain ⟨first, rest⟩ := List.forall_mem_cons.1 h
    exact allWellFormed_append first (ih rest)

theorem Statement.allNodes_wellFormed {body : List Statement} (h : ∀ s ∈ body, AllWellFormed s.nodes) :
    AllWellFormed (Statement.allNodes body) := by
  induction body with
  | nil => exact fun _ none => absurd none List.not_mem_nil
  | cons s body ih =>
    obtain ⟨first, rest⟩ := List.forall_mem_cons.1 h
    exact allWellFormed_append first (ih rest)

end LittleScript

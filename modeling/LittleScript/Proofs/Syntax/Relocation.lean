import LittleScript.Diagnostic
import LittleScript.Syntax.Alike

/-!
Trees and diagnostics of a text that stands somewhere else. Only their places change.
-/

namespace LittleScript

def Name.relocate (f : Location → Location) (name : Name) : Name :=
  { name with token := name.token.relocate f }

mutual

def Expression.relocate (f : Location → Location) : Expression → Expression
  | .name name => .name (name.relocate f)
  | .integer token value => .integer (token.relocate f) value
  | .boolean token value => .boolean (token.relocate f) value
  | .unary token operator operand => .unary (token.relocate f) operator (operand.relocate f)
  | .binary token operator left right =>
    .binary (token.relocate f) operator (left.relocate f) (right.relocate f)
  | .call token callee arguments =>
    .call (token.relocate f) (callee.relocate f) (Expression.relocateAll f arguments)
  | .function token parameters body =>
    .function (token.relocate f) (parameters.map (Name.relocate f)) (body.relocate f)

def Expression.relocateAll (f : Location → Location) : List Expression → List Expression
  | [] => []
  | e :: es => e.relocate f :: Expression.relocateAll f es

def Block.relocate (f : Location → Location) : Block → Block
  | .braced token statements => .braced (token.relocate f) (Statement.relocateAll f statements)

def Block.relocateAny (f : Location → Location) : Option Block → Option Block
  | none => none
  | some block => some (block.relocate f)

def Statement.relocate (f : Location → Location) : Statement → Statement
  | .binding token name value => .binding (token.relocate f) (name.relocate f) (value.relocate f)
  | .answer token value => .answer (token.relocate f) (value.relocate f)
  | .assignment token name value => .assignment (token.relocate f) (name.relocate f) (value.relocate f)
  | .conditional token condition consequence alternative =>
    .conditional (token.relocate f) (condition.relocate f) (consequence.relocate f)
      (Block.relocateAny f alternative)
  | .function token parameters body =>
    .function (token.relocate f) (parameters.map (Name.relocate f)) (body.relocate f)

def Statement.relocateAll (f : Location → Location) : List Statement → List Statement
  | [] => []
  | s :: body => s.relocate f :: Statement.relocateAll f body

end

def Program.relocate (f : Location → Location) (program : Program) : Program :=
  program.map (Statement.relocate f)

def Cause.relocate (f : Location → Location) : Cause → Cause
  | .unterminatedBlock opened => .unterminatedBlock (f opened)
  | cause => cause

def Diagnostic.relocate (f : Location → Location) (d : Diagnostic) : Diagnostic :=
  ⟨d.cause.relocate f, f d.location⟩

theorem Expression.relocateAll_eq_map (f : Location → Location) (es : List Expression) :
    Expression.relocateAll f es = es.map (Expression.relocate f) := by
  induction es with
  | nil => rfl
  | cons e es ih => rw [Expression.relocateAll, ih, List.map_cons]

theorem Statement.relocateAll_eq_map (f : Location → Location) (body : List Statement) :
    Statement.relocateAll f body = body.map (Statement.relocate f) := by
  induction body with
  | nil => rfl
  | cons s body ih => rw [Statement.relocateAll, ih, List.map_cons]

theorem Token.kind_relocate (f : Location → Location) (token : Token) :
    (token.relocate f).kind = token.kind := rfl

theorem Token.literal_relocate (f : Location → Location) (token : Token) :
    (token.relocate f).literal = token.literal := rfl

private theorem Token.relocate_id (token : Token) : token.relocate id = token := rfl

private theorem Name.map_relocate_id (names : List Name) : names.map (Name.relocate id) = names :=
  List.map_id names

mutual

/-- Nothing changes if every place stays the same. -/
private theorem Expression.relocate_id : ∀ e : Expression, e.relocate id = e
  | .name _ | .integer _ _ | .boolean _ _ => rfl
  | .unary token operator operand => by
    rw [Expression.relocate, Token.relocate_id, operand.relocate_id]
  | .binary token operator left right => by
    rw [Expression.relocate, Token.relocate_id, left.relocate_id, right.relocate_id]
  | .call token callee arguments => by
    rw [Expression.relocate, Token.relocate_id, callee.relocate_id, Expression.relocateAll_id]
  | .function token parameters body => by
    rw [Expression.relocate, Token.relocate_id, Name.map_relocate_id, body.relocate_id]

private theorem Expression.relocateAll_id : ∀ es : List Expression, Expression.relocateAll id es = es
  | [] => rfl
  | e :: es => by rw [Expression.relocateAll, e.relocate_id, Expression.relocateAll_id es]

private theorem Block.relocate_id : ∀ block : Block, block.relocate id = block
  | .braced token statements => by
    rw [Block.relocate, Token.relocate_id, Statement.relocateAll_id statements]

private theorem Block.relocateAny_id : ∀ block : Option Block, Block.relocateAny id block = block
  | none => rfl
  | some block => by rw [Block.relocateAny, block.relocate_id]

private theorem Statement.relocate_id : ∀ s : Statement, s.relocate id = s
  | .binding token name value => by
    rw [Statement.relocate, value.relocate_id]
    rfl
  | .answer token value => by rw [Statement.relocate, Token.relocate_id, value.relocate_id]
  | .assignment token name value => by
    rw [Statement.relocate, value.relocate_id]
    rfl
  | .conditional token condition consequence alternative => by
    rw [Statement.relocate, Token.relocate_id, condition.relocate_id, consequence.relocate_id,
      Block.relocateAny_id alternative]
  | .function token parameters body => by
    rw [Statement.relocate, Token.relocate_id, Name.map_relocate_id, body.relocate_id]

private theorem Statement.relocateAll_id : ∀ body : List Statement, Statement.relocateAll id body = body
  | [] => rfl
  | s :: body => by rw [Statement.relocateAll, s.relocate_id, Statement.relocateAll_id body]

end

theorem Program.relocate_id (program : Program) : program.relocate id = program := by
  rw [Program.relocate, ← Statement.relocateAll_eq_map, Statement.relocateAll_id]

private theorem Diagnostic.relocate_id (d : Diagnostic) : d.relocate id = d := by
  obtain ⟨cause, location⟩ := d
  cases cause <;> rfl

theorem Diagnostic.map_relocate_id (ds : List Diagnostic) : ds.map (Diagnostic.relocate id) = ds :=
  (List.map_congr_left fun d _ => d.relocate_id).trans (List.map_id ds)

private theorem Token.alike_relocate (f : Location → Location) (token : Token) :
    token.alike (token.relocate f) = true := decide_eq_true rfl

private theorem Name.alike_relocate (f : Location → Location) (name : Name) :
    name.alike (name.relocate f) = true := by
  simp [Name.alike, Name.relocate, Token.alike_relocate]

private theorem Name.allAlike_relocate (f : Location → Location) (names : List Name) :
    Name.allAlike names (names.map (Name.relocate f)) = true := by
  induction names with
  | nil => rfl
  | cons name names ih => simp [Name.allAlike, Name.alike_relocate, ih]

mutual

/-- Only places change. -/
private theorem Expression.alike_relocate (f : Location → Location) :
    ∀ e : Expression, e.alike (e.relocate f) = true
  | .name name => by simp [Expression.alike, Expression.relocate, name.alike_relocate]
  | .integer _ _ | .boolean _ _ => by
    simp [Expression.alike, Expression.relocate, Token.alike_relocate]
  | .unary _ _ operand => by
    simp [Expression.alike, Expression.relocate, Token.alike_relocate, operand.alike_relocate f]
  | .binary _ _ left right => by
    simp [Expression.alike, Expression.relocate, Token.alike_relocate, left.alike_relocate f,
      right.alike_relocate f]
  | .call _ callee arguments => by
    simp [Expression.alike, Expression.relocate, Token.alike_relocate, callee.alike_relocate f,
      Expression.allAlike_relocate f arguments]
  | .function _ parameters body => by
    simp [Expression.alike, Expression.relocate, Token.alike_relocate, Name.allAlike_relocate,
      body.alike_relocate f]

private theorem Expression.allAlike_relocate (f : Location → Location) :
    ∀ es : List Expression, Expression.allAlike es (Expression.relocateAll f es) = true
  | [] => by simp [Expression.allAlike, Expression.relocateAll]
  | e :: es => by
    simp [Expression.allAlike, Expression.relocateAll, e.alike_relocate f,
      Expression.allAlike_relocate f es]

private theorem Block.alike_relocate (f : Location → Location) :
    ∀ block : Block, block.alike (block.relocate f) = true
  | .braced _ statements => by
    simp [Block.alike, Block.relocate, Token.alike_relocate, Statement.allAlike_relocate f statements]

private theorem Block.bothAlike_relocate (f : Location → Location) :
    ∀ block : Option Block, Block.bothAlike block (Block.relocateAny f block) = true
  | none => by simp [Block.bothAlike, Block.relocateAny]
  | some block => by simp [Block.bothAlike, Block.relocateAny, block.alike_relocate f]

private theorem Statement.alike_relocate (f : Location → Location) :
    ∀ s : Statement, s.alike (s.relocate f) = true
  | .binding _ name value => by
    simp [Statement.alike, Statement.relocate, Token.alike_relocate, name.alike_relocate,
      value.alike_relocate f]
  | .answer _ value => by
    simp [Statement.alike, Statement.relocate, Token.alike_relocate, value.alike_relocate f]
  | .assignment _ name value => by
    simp [Statement.alike, Statement.relocate, Token.alike_relocate, name.alike_relocate,
      value.alike_relocate f]
  | .conditional _ condition consequence alternative => by
    simp [Statement.alike, Statement.relocate, Token.alike_relocate, condition.alike_relocate f,
      consequence.alike_relocate f, Block.bothAlike_relocate f alternative]
  | .function _ parameters body => by
    simp [Statement.alike, Statement.relocate, Token.alike_relocate, Name.allAlike_relocate,
      body.alike_relocate f]

private theorem Statement.allAlike_relocate (f : Location → Location) :
    ∀ body : List Statement, Statement.allAlike body (Statement.relocateAll f body) = true
  | [] => by simp [Statement.allAlike, Statement.relocateAll]
  | s :: body => by
    simp [Statement.allAlike, Statement.relocateAll, s.alike_relocate f,
      Statement.allAlike_relocate f body]

end

theorem Program.alike_relocate (f : Location → Location) (program : Program) :
    program.alike (program.relocate f) = true := by
  rw [Program.alike, Program.relocate, ← Statement.relocateAll_eq_map]
  exact Statement.allAlike_relocate f program

end LittleScript

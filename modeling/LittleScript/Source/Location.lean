/-!
Where a character stands in a text: lines and columns, both from one. Only a line feed ends a line.
-/

namespace LittleScript

structure Location where
  line : Nat
  column : Nat
  deriving DecidableEq, Repr, Inhabited

namespace Location

def start : Location := ⟨1, 1⟩

def next (here : Location) (c : Char) : Location :=
  if c = '\n' then ⟨here.line + 1, 1⟩ else ⟨here.line, here.column + 1⟩

def after (here : Location) (text : List Char) : Location :=
  text.foldl next here

@[simp] theorem after_nil (here : Location) : here.after [] = here := rfl

@[simp] theorem after_cons (here : Location) (c : Char) (text : List Char) :
    here.after (c :: text) = (here.next c).after text := rfl

theorem after_append (here : Location) (a b : List Char) :
    here.after (a ++ b) = (here.after a).after b := by
  simp [after, List.foldl_append]

def shift (here : Location) (lines : Nat) : Location :=
  ⟨here.line + lines, here.column⟩

protected def lt (a b : Location) : Prop :=
  a.line < b.line ∨ a.line = b.line ∧ a.column < b.column

instance : LT Location := ⟨Location.lt⟩

def text (here : Location) : String :=
  toString here.line ++ ":" ++ toString here.column

end Location
end LittleScript

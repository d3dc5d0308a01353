import LittleScript.Token.Kind

/-!
Colours of the terminal output: one for each role that a piece of output can have.
-/

namespace LittleScript

structure Color where
  red : Nat
  green : Nat
  blue : Nat
  deriving DecidableEq, Repr

inductive Role where
  | prompt | keyword | number | identifier | operator | delimiter | illegal | ending
  | error | success
  deriving DecidableEq, Repr

namespace Role

def color : Role → Color
  | prompt => ⟨249, 226, 175⟩
  | keyword => ⟨137, 180, 250⟩
  | number => ⟨250, 179, 135⟩
  | identifier => ⟨205, 214, 244⟩
  | operator => ⟨148, 226, 213⟩
  | delimiter => ⟨180, 165, 120⟩
  | illegal => ⟨243, 139, 168⟩
  | ending => ⟨108, 112, 134⟩
  | error => ⟨243, 139, 168⟩
  | success => ⟨166, 227, 161⟩

def ofKind (kind : Kind) : Role :=
  match kind with
  | .integer => number
  | .identifier => identifier
  | .illegal => illegal
  | .endOfInput => ending
  | kind =>
    if kind.isKeyword then keyword
    else if kind.isOperator then operator
    else delimiter

end Role

namespace Color

def start (color : Color) : String :=
  "\x1b[38;2;" ++ toString color.red ++ ";" ++ toString color.green ++ ";" ++
    toString color.blue ++ "m"

def stop : String := "\x1b[0m"

end Color
end LittleScript

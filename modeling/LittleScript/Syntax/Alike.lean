import LittleScript.Syntax.Tree

/-!
Comparing trees apart from places. Everything else counts: kinds, literals, names, values, operators
and the number of children.
-/

namespace LittleScript

def Name.alike (a b : Name) : Bool := a.token.alike b.token && a.text = b.text

def Name.allAlike : List Name → List Name → Bool
  | [], [] => true
  | a :: as, b :: bs => a.alike b && allAlike as bs
  | _, _ => false

mutual

def Expression.alike : Expression → Expression → Bool
  | .name a, .name b => a.alike b
  | .integer s a, .integer t b => s.alike t && a = b
  | .boolean s a, .boolean t b => s.alike t && a = b
  | .unary s f a, .unary t g b => s.alike t && f = g && a.alike b
  | .binary s f a c, .binary t g b d => s.alike t && f = g && a.alike b && c.alike d
  | .call s a as, .call t b bs => s.alike t && a.alike b && Expression.allAlike as bs
  | .function s as a, .function t bs b => s.alike t && Name.allAlike as bs && a.alike b
  | _, _ => false

def Expression.allAlike : List Expression → List Expression → Bool
  | [], [] => true
  | a :: as, b :: bs => a.alike b && Expression.allAlike as bs
  | _, _ => false

def Block.alike : Block → Block → Bool
  | .braced s as, .braced t bs => s.alike t && Statement.allAlike as bs

def Block.bothAlike : Option Block → Option Block → Bool
  | none, none => true
  | some a, some b => a.alike b
  | _, _ => false

def Statement.alike : Statement → Statement → Bool
  | .binding s m a, .binding t n b => s.alike t && m.alike n && a.alike b
  | .answer s a, .answer t b => s.alike t && a.alike b
  | .assignment s m a, .assignment t n b => s.alike t && m.alike n && a.alike b
  | .conditional s a c e, .conditional t b d f =>
    s.alike t && a.alike b && c.alike d && Block.bothAlike e f
  | .function s as a, .function t bs b => s.alike t && Name.allAlike as bs && a.alike b
  | _, _ => false

def Statement.allAlike : List Statement → List Statement → Bool
  | [], [] => true
  | a :: as, b :: bs => a.alike b && Statement.allAlike as bs
  | _, _ => false

end

def Program.alike (a b : Program) : Bool := Statement.allAlike a b

end LittleScript

import LittleScript.Text.Printable

/-!
Quoted text. Quotes stand around it, and a character that would not be seen, or would end the quote,
is written by an escape.
-/

namespace LittleScript.Quoted

/-- A character in quotes. The single quote stands as it is; other escapes hold the code point in
hexadecimal digits without padding, between braces. -/
def encodeChar (c : Char) : List Char :=
  match c with
  | '\x00' => ['\\', '0']
  | '\t' => ['\\', 't']
  | '\r' => ['\\', 'r']
  | '\n' => ['\\', 'n']
  | '\\' => ['\\', '\\']
  | '"' => ['\\', '"']
  | c =>
    if Printable.isShown c then [c]
    else ['\\', 'u', '{'] ++ Nat.toDigits 16 c.toNat ++ ['}']

def encode (text : List Char) : List Char := text.flatMap encodeChar

def quote (text : String) : String :=
  String.ofList ('"' :: encode text.toList ++ ['"'])

@[simp] theorem encode_cons (c : Char) (text : List Char) :
    encode (c :: text) = encodeChar c ++ encode text := rfl

end LittleScript.Quoted

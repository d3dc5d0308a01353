/-!
White space in the sense of the Unicode property `White_Space`, and trimming by it.
-/

namespace LittleScript.Blank

def isWhite (c : Char) : Bool :=
  let code := c.toNat
  (0x9 ≤ code && code ≤ 0xd) || code = 0x20 || code = 0x85 || code = 0xa0 || code = 0x1680 ||
    (0x2000 ≤ code && code ≤ 0x200a) || code = 0x2028 || code = 0x2029 || code = 0x202f ||
    code = 0x205f || code = 0x3000

def trimStart (text : List Char) : List Char := text.dropWhile isWhite

def trim (text : List Char) : List Char := (trimStart (trimStart text).reverse).reverse

end LittleScript.Blank

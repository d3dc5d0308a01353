import LittleScript.Proofs.Text.Control

/-!
Reading quoted texts. The reader does not know which characters are shown as they are. It tells an escape by its
backslash, and nothing else in a quoted text begins with one.
-/

namespace LittleScript.Quoted

def unescape? : Char → Option Char
  | '0' => some '\x00'
  | 't' => some '\t'
  | 'r' => some '\r'
  | 'n' => some '\n'
  | '\\' => some '\\'
  | '"' => some '"'
  | _ => none

def hexDigit (c : Char) : Nat :=
  if c.isDigit then c.toNat - '0'.toNat else c.toNat - 'a'.toNat + 10

def withDigit (code : Nat) (digit : Char) : Nat := 16 * code + hexDigit digit

mutual

/-- The text whose quoted form goes on with these characters, up to the quote that ends them. -/
def read? : List Char → Option (List Char)
  | '\\' :: 'u' :: '{' :: rest => readCode? 0 rest
  | '\\' :: letter :: rest => (unescape? letter).bind fun c => (read? rest).map (c :: ·)
  | '"' :: rest => if rest.isEmpty then some [] else none
  | c :: rest => (read? rest).map (c :: ·)
  | [] => none

def readCode? (code : Nat) : List Char → Option (List Char)
  | '}' :: rest => (read? rest).map (Char.ofNat code :: ·)
  | digit :: rest => readCode? (withDigit code digit) rest
  | [] => none

end

def unquote? : List Char → Option String
  | '"' :: rest => (read? rest).map String.ofList
  | _ => none

/-- A character is quoted by a letter, by itself or by the digits of its code point. -/
private theorem encodeChar_cases (c : Char) :
    (∃ letter, letter ≠ 'u' ∧ unescape? letter = some c ∧ encodeChar c = ['\\', letter]) ∨
      (c ≠ '\\' ∧ c ≠ '"' ∧ encodeChar c = [c]) ∨
      encodeChar c = '\\' :: 'u' :: '{' :: (Nat.toDigits 16 c.toNat ++ ['}']) := by
  unfold encodeChar
  split
  case h_7 _ _ _ _ _ backslash quotation =>
    right
    split
    · exact .inl ⟨backslash, quotation, rfl⟩
    · exact .inr rfl
  all_goals exact .inl ⟨_, by decide, rfl, rfl⟩

private theorem hexDigit_digitChar {n : Nat} (small : n < 16) : hexDigit (Nat.digitChar n) = n :=
  (by decide : ∀ n < 16, hexDigit (Nat.digitChar n) = n) n small

private theorem brace_not_mem_toDigits (n : Nat) : '}' ∉ Nat.toDigits 16 n := by
  intro mem
  obtain ⟨digit, small, same⟩ := exists_digitChar_of_mem_toDigits (by decide) mem
  exact (by decide : ∀ digit < 16, '}' ≠ Nat.digitChar digit) digit small same

/-- The digits of a number stand for it. -/
private theorem foldl_toDigits (n : Nat) : (Nat.toDigits 16 n).foldl withDigit 0 = n := by
  induction n using Nat.strongRecOn with
  | ind n ih =>
    rw [Nat.toDigits_eq_if (by decide)]
    split
    · rename_i small
      rw [List.foldl_cons, List.foldl_nil, withDigit, hexDigit_digitChar small, Nat.mul_zero, Nat.zero_add]
    · rename_i large
      have last : n % 16 < 16 := Nat.mod_lt n (by decide)
      rw [List.foldl_append, ih (n / 16) (Nat.div_lt_self (by omega) (by decide)), List.foldl_cons,
        List.foldl_nil, withDigit, hexDigit_digitChar last, Nat.div_add_mod]

private theorem readCode?_append {digits : List Char} (free : '}' ∉ digits) (code : Nat) (rest : List Char) :
    readCode? code (digits ++ '}' :: rest) =
      (read? rest).map (Char.ofNat (digits.foldl withDigit code) :: ·) := by
  induction digits generalizing code with
  | nil => rw [List.nil_append, readCode?, List.foldl_nil]
  | cons digit digits ih =>
    rw [List.mem_cons, not_or] at free
    obtain ⟨other, later⟩ := free
    rw [List.cons_append, readCode?, ih later, List.foldl_cons]
    exact fun same => other same.symm

/-- Each quoted character is read as what it was, whatever stands behind it. -/
private theorem read?_encodeChar (c : Char) (rest : List Char) :
    read? (encodeChar c ++ rest) = (read? rest).map (c :: ·) := by
  obtain ⟨letter, other, stands, form⟩ | ⟨backslash, quotation, form⟩ | form := encodeChar_cases c
  · rw [form, List.cons_append, List.singleton_append, read?, stands, Option.bind_some]
    exact fun _ same _ => other same
  · rw [form, List.singleton_append, read?]
    · exact fun _ same _ => backslash same
    · exact fun _ _ same _ => backslash same
    · exact quotation
  · have code := readCode?_append (brace_not_mem_toDigits c.toNat) 0 rest
    rw [foldl_toDigits, Char.ofNat_toNat] at code
    rw [form, ← code, List.cons_append, List.cons_append, List.cons_append, List.append_assoc, read?]
    rfl

private theorem read?_encode (text : List Char) : read? (encode text ++ ['"']) = some text := by
  induction text with
  | nil => rfl
  | cons c text ih => rw [encode_cons, List.append_assoc, read?_encodeChar, ih, Option.map_some]

/-- A quoted text is read as what it was. -/
theorem unquote?_quote (text : String) : unquote? (quote text).toList = some text := by
  rw [quote, String.toList_ofList, List.cons_append, unquote?, read?_encode, Option.map_some, String.ofList_toList]

end LittleScript.Quoted

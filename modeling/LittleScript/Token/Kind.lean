/-!
The kinds of token: delimiters, operators, literals, names, keywords, and the two marks for the end
of the input and for a character that belongs to no token.
-/

namespace LittleScript

inductive Kind where
  | leftParen | rightParen | leftBrace | rightBrace | comma | semicolon
  | assign | plus | minus | asterisk | slash | bang | less | greater | equal | notEqual
  | integer | identifier
  | letWord | returnWord | fnWord | trueWord | falseWord | ifWord | elseWord
  | endOfInput | illegal
  deriving DecidableEq, Repr, Inhabited

namespace Kind

def all : List Kind :=
  [leftParen, rightParen, leftBrace, rightBrace, comma, semicolon,
    assign, plus, minus, asterisk, slash, bang, less, greater, equal, notEqual,
    integer, identifier,
    letWord, returnWord, fnWord, trueWord, falseWord, ifWord, elseWord,
    endOfInput, illegal]

theorem mem_all (k : Kind) : k ∈ all := by cases k <;> decide

def name : Kind → String
  | leftParen => "LParen"
  | rightParen => "RParen"
  | leftBrace => "LBrace"
  | rightBrace => "RBrace"
  | comma => "Comma"
  | semicolon => "Semicolon"
  | assign => "Assign"
  | plus => "Plus"
  | minus => "Minus"
  | asterisk => "Asterisk"
  | slash => "Slash"
  | bang => "Bang"
  | less => "Lt"
  | greater => "Gt"
  | equal => "Eq"
  | notEqual => "NotEq"
  | integer => "Int"
  | identifier => "Identifier"
  | letWord => "Let"
  | returnWord => "Return"
  | fnWord => "Function"
  | trueWord => "True"
  | falseWord => "False"
  | ifWord => "If"
  | elseWord => "Else"
  | endOfInput => "Eof"
  | illegal => "Illegal"

/-- How a message speaks of the kind: a fixed spelling stands for itself, the open classes have
a word in capitals. -/
def symbol : Kind → String
  | leftParen => "("
  | rightParen => ")"
  | leftBrace => "\x7b"
  | rightBrace => "\x7d"
  | comma => ","
  | semicolon => ";"
  | assign => "="
  | plus => "+"
  | minus => "-"
  | asterisk => "*"
  | slash => "/"
  | bang => "!"
  | less => "<"
  | greater => ">"
  | equal => "=="
  | notEqual => "!="
  | integer => "INT"
  | identifier => "IDENT"
  | letWord => "let"
  | returnWord => "return"
  | fnWord => "fn"
  | trueWord => "true"
  | falseWord => "false"
  | ifWord => "if"
  | elseWord => "else"
  | endOfInput => "EOF"
  | illegal => "ILLEGAL"

def keywords : List Kind :=
  [letWord, returnWord, fnWord, trueWord, falseWord, ifWord, elseWord]

def operators : List Kind :=
  [assign, plus, minus, asterisk, slash, bang, less, greater, equal, notEqual]

def isKeyword (k : Kind) : Bool := k ∈ keywords

def isOperator (k : Kind) : Bool := k ∈ operators

def ofWord (word : String) : Kind :=
  (keywords.find? (·.symbol = word)).getD identifier

def ofChar? : Char → Option Kind
  | '(' => some leftParen
  | ')' => some rightParen
  | '{' => some leftBrace
  | '}' => some rightBrace
  | ',' => some comma
  | ';' => some semicolon
  | '=' => some assign
  | '+' => some plus
  | '-' => some minus
  | '*' => some asterisk
  | '/' => some slash
  | '!' => some bang
  | '<' => some less
  | '>' => some greater
  | _ => none

/-- A sign is written exactly as the character that makes it. -/
theorem symbol_of_ofChar? {c : Char} {k : Kind} (h : ofChar? c = some k) :
    k.symbol = String.singleton c := by
  unfold ofChar? at h
  split at h <;> simp_all <;> subst h <;> rfl

/-- Every keyword is the kind of its own spelling. -/
theorem ofWord_symbol {k : Kind} (h : k ∈ keywords) : ofWord k.symbol = k := by
  revert k
  decide

/-- A word is a keyword or an identifier, never another kind. -/
theorem ofWord_mem (word : String) : ofWord word ∈ identifier :: keywords := by
  unfold ofWord
  cases h : keywords.find? (·.symbol = word) with
  | none => simp
  | some k => exact List.mem_cons_of_mem _ (List.mem_of_find?_eq_some h)

end Kind
end LittleScript

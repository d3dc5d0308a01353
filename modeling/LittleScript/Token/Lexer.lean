import LittleScript.Token.Basic

/-!
Reading tokens off a text. Blanks separate tokens and belong to none; the longest word, number or
paired sign is taken; a character that starts nothing is a token of its own. Nothing is an error.
-/

namespace LittleScript

/-- Space, tab, line feed and carriage return separate tokens. No other space does. -/
def isBlank (c : Char) : Bool := c = ' ' || c = '\t' || c = '\n' || c = '\r'

def isLetter (c : Char) : Bool := c.isAlpha || c = '_'

structure Lexeme where
  kind : Kind
  taken : List Char
  rest : List Char
  deriving DecidableEq, Repr

namespace Lexeme

def first (c : Char) (rest : List Char) : Lexeme :=
  match c, rest with
  | '=', '=' :: after => ⟨.equal, ['=', '='], after⟩
  | '!', '=' :: after => ⟨.notEqual, ['!', '='], after⟩
  | _, _ =>
    match Kind.ofChar? c with
    | some kind => ⟨kind, [c], rest⟩
    | none =>
      if isLetter c then
        let word := c :: rest.takeWhile isLetter
        ⟨Kind.ofWord (String.ofList word), word, rest.dropWhile isLetter⟩
      else if c.isDigit then
        ⟨.integer, c :: rest.takeWhile Char.isDigit, rest.dropWhile Char.isDigit⟩
      else
        ⟨.illegal, [c], rest⟩

/-- Nothing is lost between the lexeme and the rest. -/
theorem first_taken_append_rest (c : Char) (rest : List Char) :
    (first c rest).taken ++ (first c rest).rest = c :: rest := by
  unfold first
  split
  · rfl
  · rfl
  · split
    · rfl
    · split
      · simp [List.takeWhile_append_dropWhile]
      · split
        · simp [List.takeWhile_append_dropWhile]
        · rfl

/-- A lexeme has at least one character. -/
theorem first_taken_ne_nil (c : Char) (rest : List Char) : (first c rest).taken ≠ [] := by
  unfold first
  split
  · simp
  · simp
  · split
    · simp
    · split
      · simp
      · split <;> simp

theorem first_rest_length (c : Char) (rest : List Char) :
    (first c rest).rest.length < (c :: rest).length := by
  have whole := congrArg List.length (first_taken_append_rest c rest)
  have nonempty := List.length_pos_iff.2 (first_taken_ne_nil c rest)
  simp only [List.length_append] at whole
  omega

end Lexeme

/-- A reader of tokens: the text left, its place, and whether a listing has given its end mark. -/
structure Lexer where
  rest : List Char
  location : Location
  ended : Bool
  deriving DecidableEq, Repr

namespace Lexer

def ofText (text : String) : Lexer := ⟨text.toList, Location.start, false⟩

def settle (lexer : Lexer) : Lexer :=
  { lexer with
    rest := lexer.rest.dropWhile isBlank
    location := lexer.location.after (lexer.rest.takeWhile isBlank) }

def token? (lexer : Lexer) : Option (Token × Lexer) :=
  match lexer.settle.rest with
  | [] => none
  | c :: rest =>
    let found := Lexeme.first c rest
    let here := lexer.settle.location
    some (⟨found.kind, String.ofList found.taken, here⟩,
      { lexer with rest := found.rest, location := here.after found.taken })

theorem settle_rest_length (lexer : Lexer) : lexer.settle.rest.length ≤ lexer.rest.length :=
  (List.dropWhile_suffix isBlank).length_le

/-- A token proper takes some of the text. -/
theorem rest_length_of_token? {lexer : Lexer} {token : Token} {after : Lexer}
    (h : lexer.token? = some (token, after)) : after.rest.length < lexer.rest.length := by
  unfold token? at h
  split at h
  · simp at h
  · rename_i c rest settled
    have shorter := Lexeme.first_rest_length c rest
    have bound := settle_rest_length lexer
    rw [settled] at bound
    simp only [Option.some.injEq, Prod.mk.injEq] at h
    obtain ⟨-, rfl⟩ := h
    exact Nat.lt_of_lt_of_le shorter bound

/-- The next token. At the end this is the end mark, as often as it is asked for. -/
def nextToken (lexer : Lexer) : Token × Lexer :=
  lexer.token?.getD (Token.endMark lexer.settle.location, lexer.settle)

/-- The next entry of a listing, which gives the end mark once and then stops. -/
def next? (lexer : Lexer) : Option Token × Lexer :=
  if lexer.ended then (none, lexer)
  else
    let (token, after) := lexer.nextToken
    (some token, { after with ended := token.kind = .endOfInput })

/-- The tokens proper that are left, put behind those already `found` (latest first), and the reader
at the end of its text. -/
def collect (lexer : Lexer) (found : List Token) : List Token × Lexer :=
  match _ : lexer.token? with
  | none => (found.reverse, lexer.settle)
  | some (token, after) => collect after (token :: found)
termination_by lexer.rest.length
decreasing_by exact rest_length_of_token? ‹_›

def listing (lexer : Lexer) : List Token × Lexer :=
  if lexer.ended then ([], lexer)
  else
    let (tokens, finish) := lexer.collect []
    (tokens ++ [Token.endMark finish.location], { finish with ended := true })

end Lexer

/-- What is left to read: tokens proper, and the place of the end mark that follows for ever. -/
structure TokenStream where
  tokens : List Token
  finish : Location
  deriving DecidableEq, Repr

namespace TokenStream

def ofLexer (lexer : Lexer) : TokenStream :=
  let (tokens, finish) := lexer.collect []
  ⟨tokens, finish.location⟩

def ofText (text : String) : TokenStream := ofLexer (Lexer.ofText text)

def toList (stream : TokenStream) : List Token :=
  stream.tokens ++ [Token.endMark stream.finish]

end TokenStream
end LittleScript

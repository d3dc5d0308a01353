import LittleScript.Proofs.Token.Collecting

/-!
Literals as tokens of their kinds are spelled. The tokens of a text are spelled so, and such a literal
is read back as long as nothing behind it would be read with it.
-/

namespace LittleScript

def Kind.signs : List Kind :=
  [.leftParen, .rightParen, .leftBrace, .rightBrace, .comma, .semicolon, .assign, .plus, .minus, .asterisk,
    .slash, .bang, .less, .greater, .equal, .notEqual]

inductive Lexical : Kind → String → Prop where
  | sign {kind : Kind} (fixed : kind ∈ Kind.signs) : Lexical kind kind.symbol
  | word {letters : List Char} (proper : letters ≠ []) (all : ∀ c ∈ letters, isLetter c = true) :
      Lexical (Kind.ofWord (String.ofList letters)) (String.ofList letters)
  | number {digits : List Char} (proper : digits ≠ []) (all : ∀ c ∈ digits, c.isDigit = true) :
      Lexical .integer (String.ofList digits)

/-- A character right behind a token of the kind is read as part of the same lexeme. -/
def Kind.continuedBy (kind : Kind) (c : Char) : Bool :=
  if kind ∈ identifier :: keywords then isLetter c
  else if kind = integer then c.isDigit
  else if kind = assign ∨ kind = bang then c = '='
  else false

def Kind.Free (kind : Kind) (following : List Char) : Prop :=
  ∀ c ∈ following.head?, kind.continuedBy c = false

/-- The first lexeme of a text is an illegal character or spelled like its kind. -/
theorem Lexeme.first_lexical (c : Char) (rest : List Char) :
    (first c rest).kind = .illegal ∨
      Lexical (first c rest).kind (String.ofList (first c rest).taken) := by
  unfold first
  split
  · have fixed : Kind.equal ∈ Kind.signs := by decide
    exact .inr (.sign fixed)
  · have fixed : Kind.notEqual ∈ Kind.signs := by decide
    exact .inr (.sign fixed)
  · split
    · rename_i kind sign
      right
      have fixed : kind ∈ Kind.signs := by
        unfold Kind.ofChar? at sign
        split at sign
        all_goals first | cases sign; decide | cases sign
      have literal : String.ofList [c] = kind.symbol := (Kind.symbol_of_ofChar? sign).symm
      rw [literal]
      exact .sign fixed
    · split
      · rename_i letter
        right
        apply Lexical.word (List.cons_ne_nil _ _)
        intro d mem
        obtain rfl | inside := List.mem_cons.1 mem
        · exact letter
        · exact List.all_eq_true.1 List.all_takeWhile d inside
      · split
        · rename_i digit
          right
          apply Lexical.number (List.cons_ne_nil _ _)
          intro d mem
          obtain rfl | inside := List.mem_cons.1 mem
          · exact digit
          · exact List.all_eq_true.1 List.all_takeWhile d inside
        · exact .inl rfl

/-- The tokens of a text are illegal characters or spelled like their kinds. -/
private theorem Lexer.lexical_of_mem_collect {lexer : Lexer} {found : List Token}
    (h : ∀ token ∈ found, token.kind = .illegal ∨ Lexical token.kind token.literal) :
    ∀ token ∈ (lexer.collect found).1, token.kind = .illegal ∨ Lexical token.kind token.literal := by
  fun_induction collect lexer found with
  | case1 lexer found ended =>
    intro token mem
    exact h token (List.mem_reverse.1 mem)
  | case2 lexer found token after read ih =>
    apply ih
    intro other mem
    obtain rfl | before := List.mem_cons.1 mem
    · obtain ⟨c, rest, -, rfl, -⟩ := settled_of_token? read
      exact Lexeme.first_lexical c rest
    · exact h other before

theorem TokenStream.lexical_of_mem (text : String) :
    ∀ token ∈ (ofText text).tokens, token.kind = .illegal ∨ Lexical token.kind token.literal :=
  Lexer.lexical_of_mem_collect fun _ none => absurd none List.not_mem_nil

/-- Nothing is spelled like the end of the input. -/
theorem Lexical.kind_ne_endOfInput {kind : Kind} {literal : String} (h : Lexical kind literal) :
    kind ≠ .endOfInput := by
  cases h with
  | sign fixed =>
    rintro rfl
    exact absurd fixed (by decide)
  | @word letters =>
    intro mark
    have spelled := Kind.ofWord_mem (String.ofList letters)
    rw [mark] at spelled
    exact absurd spelled (by decide)
  | number => decide

/-- The end mark is not among the tokens of a text. -/
theorem TokenStream.kind_ne_endOfInput (text : String) :
    ∀ token ∈ (ofText text).tokens, token.kind ≠ .endOfInput := by
  intro token mem
  obtain illegal | lexical := lexical_of_mem text token mem
  · rw [illegal]
    decide
  · exact lexical.kind_ne_endOfInput

/-- A character that makes a sign is neither a letter nor a digit. -/
private theorem ofChar?_eq_none {c : Char} (h : isLetter c = true ∨ c.isDigit = true) :
    Kind.ofChar? c = none := by
  unfold Kind.ofChar?
  split
  all_goals first | rfl | exact absurd h (by decide)

theorem isBlank_eq_false {c : Char} (h : isLetter c = true ∨ c.isDigit = true) : isBlank c = false := by
  cases blank : isBlank c with
  | false => rfl
  | true =>
    simp only [isBlank, Bool.or_eq_true, decide_eq_true_iff] at blank
    obtain ((rfl | rfl) | rfl) | rfl := blank
    all_goals exact absurd h (by decide)

/-- The longest run of characters of a class ends where the class ends. -/
private theorem takeWhile_append {p : Char → Bool} {run following : List Char} (all : ∀ c ∈ run, p c = true)
    (free : ∀ c ∈ following.head?, p c = false) :
    (run ++ following).takeWhile p = run ∧ (run ++ following).dropWhile p = following := by
  rw [List.takeWhile_append_of_pos all, List.dropWhile_append_of_pos all]
  cases following with
  | nil => exact ⟨List.append_nil _, rfl⟩
  | cons c rest =>
    have other : ¬ p c = true := by
      rw [free c rfl]
      exact Bool.false_ne_true
    rw [List.takeWhile_cons_of_neg other, List.dropWhile_cons_of_neg other, List.append_nil]
    exact ⟨rfl, rfl⟩

/-- Characters of a class start a lexeme that takes all of them. -/
theorem Lexeme.first_of_class {c : Char} (h : isLetter c = true ∨ c.isDigit = true) (rest : List Char) :
    first c rest =
      if isLetter c then
        ⟨Kind.ofWord (String.ofList (c :: rest.takeWhile isLetter)), c :: rest.takeWhile isLetter,
          rest.dropWhile isLetter⟩
      else ⟨.integer, c :: rest.takeWhile Char.isDigit, rest.dropWhile Char.isDigit⟩ := by
  unfold first
  split
  · exact absurd h (by decide)
  · exact absurd h (by decide)
  · rw [ofChar?_eq_none h]
    by_cases letter : isLetter c = true
    · simp only [letter, if_true]
    · have digit : c.isDigit = true := h.resolve_left letter
      simp only [letter, digit, if_true]

/-- An equals sign or an exclamation mark is a lexeme unless an equals sign follows. -/
private theorem Lexeme.first_of_pair {c : Char} {kind : Kind} (pair : c = '=' ∨ c = '!')
    (made : Kind.ofChar? c = some kind) {following : List Char} (free : ∀ d ∈ following.head?, d ≠ '=') :
    first c following = ⟨kind, [c], following⟩ := by
  unfold first
  split
  · exact absurd rfl (free '=' rfl)
  · exact absurd rfl (free '=' rfl)
  · rw [made]

theorem Lexeme.first_equals_sign (rest : List Char) : (first '=' rest).kind ∈ [Kind.assign, .equal] := by
  cases rest with
  | nil => decide
  | cons d rest =>
    by_cases paired : d = '='
    · subst paired
      exact List.mem_cons_of_mem _ List.mem_cons_self
    · have alone : first '=' (d :: rest) = ⟨.assign, ['='], d :: rest⟩ :=
        first_of_pair (.inl rfl) rfl fun e same => by cases same; exact paired
      rw [alone]
      exact List.mem_cons_self

theorem toNat_of_isLetter {c : Char} (letter : isLetter c = true) : 65 ≤ c.toNat ∧ c.toNat ≤ 122 := by
  have ranges : isLetter c = (decide ('A'.val ≤ c.val ∧ c.val ≤ 'Z'.val) ||
      decide ('a'.val ≤ c.val) && decide (c.val ≤ 'z'.val) || decide (c = '_')) := rfl
  rw [ranges] at letter
  simp only [Bool.or_eq_true, Bool.and_eq_true, decide_eq_true_iff, UInt32.le_iff_toNat_le] at letter
  have bounds : 'A'.val.toNat = 65 ∧ 'Z'.val.toNat = 90 ∧ 'a'.val.toNat = 97 ∧ 'z'.val.toNat = 122 := by decide
  have same : c.toNat = c.val.toNat := rfl
  obtain (upper | lower) | rfl := letter
  · omega
  · omega
  · decide

theorem toNat_of_isDigit {c : Char} (digit : c.isDigit = true) : 48 ≤ c.toNat ∧ c.toNat ≤ 57 := by
  have bounds : '0'.toNat = 48 ∧ '9'.toNat = 57 := by decide
  rw [Char.isDigit_iff_toNat] at digit
  omega

theorem isLetter_of_isDigit {c : Char} (digit : c.isDigit = true) : isLetter c = false := by
  have low := toNat_of_isDigit digit
  cases letter : isLetter c with
  | false => rfl
  | true =>
    have high := toNat_of_isLetter letter
    omega

/-- A literal of a kind is read as such in front of everything that is free of it. -/
theorem Lexical.first {kind : Kind} {literal : String} (h : Lexical kind literal) :
    ∃ c rest, literal.toList = c :: rest ∧ isBlank c = false ∧
      ∀ following, kind.Free following →
        Lexeme.first c (rest ++ following) = ⟨kind, c :: rest, following⟩ := by
  cases h with
  | sign fixed =>
    -- Signs of one character are read whatever follows, apart from those that may become a pair.
    cases kind
    case assign =>
      exact ⟨'=', [], rfl, by decide, fun _ free => Lexeme.first_of_pair (.inl rfl) rfl
        fun d mem => of_decide_eq_false (free d mem)⟩
    case bang =>
      exact ⟨'!', [], rfl, by decide, fun _ free => Lexeme.first_of_pair (.inr rfl) rfl
        fun d mem => of_decide_eq_false (free d mem)⟩
    all_goals first
      | exact ⟨_, _, rfl, by decide, fun _ _ => rfl⟩
      | exact absurd fixed (by decide)
  | @word letters proper all =>
    cases letters with
    | nil => exact absurd rfl proper
    | cons c letters =>
      have letter : isLetter c = true := all c List.mem_cons_self
      have others : ∀ d ∈ letters, isLetter d = true := fun d mem => all d (List.mem_cons_of_mem c mem)
      refine ⟨c, letters, String.toList_ofList, isBlank_eq_false (.inl letter), ?_⟩
      intro following free
      have free : ∀ d ∈ following.head?, isLetter d = false := by
        intro d mem
        have apart := free d mem
        rwa [Kind.continuedBy, if_pos (Kind.ofWord_mem _)] at apart
      obtain ⟨taken, left⟩ := takeWhile_append others free
      rw [Lexeme.first_of_class (.inl letter), if_pos letter, taken, left]
  | @number digits proper all =>
    cases digits with
    | nil => exact absurd rfl proper
    | cons c digits =>
      have digit : c.isDigit = true := all c List.mem_cons_self
      have others : ∀ d ∈ digits, d.isDigit = true := fun d mem => all d (List.mem_cons_of_mem c mem)
      have letter : ¬ isLetter c = true := by
        rw [isLetter_of_isDigit digit]
        exact Bool.false_ne_true
      refine ⟨c, digits, String.toList_ofList, isBlank_eq_false (.inr digit), ?_⟩
      intro following free
      obtain ⟨taken, left⟩ := takeWhile_append others free
      rw [Lexeme.first_of_class (.inr digit), if_neg letter, taken, left]

/-- The word of a keyword is that keyword's spelling, and no other word is one. -/
private theorem Kind.ofWord_eq {word : String} {kind : Kind} (h : ofWord word = kind) :
    if kind ∈ keywords then word = kind.symbol else ∀ other ∈ keywords, word ≠ other.symbol := by
  subst h
  rw [ofWord]
  cases found : keywords.find? (·.symbol = word) with
  | none =>
    rw [Option.getD_none, if_neg (by decide)]
    intro other mem same
    exact List.find?_eq_none.1 found other mem (decide_eq_true same.symm)
  | some kind =>
    rw [Option.getD_some, if_pos (List.mem_of_find?_eq_some found)]
    have hit := List.find?_some found
    simp only [decide_eq_true_iff] at hit
    exact hit.symm

/-- An identifier is a word that is not reserved. -/
theorem Lexical.of_identifier {literal : String} (h : Lexical .identifier literal) :
    literal ≠ "" ∧ (∀ c ∈ literal.toList, isLetter c = true) ∧
      ∀ kind ∈ Kind.keywords, literal ≠ kind.symbol := by
  generalize same : Kind.identifier = kind at h
  cases h with
  | sign fixed =>
    subst same
    exact absurd fixed (by decide)
  | @word letters proper all =>
    have unreserved := Kind.ofWord_eq same.symm
    rw [if_neg (by decide)] at unreserved
    refine ⟨?_, ?_, unreserved⟩
    · simpa using proper
    · rw [String.toList_ofList]
      exact all
  | number => cases same

/-- A number is a run of digits. -/
theorem Lexical.of_integer {literal : String} (h : Lexical .integer literal) :
    literal ≠ "" ∧ ∀ c ∈ literal.toList, c.isDigit = true := by
  generalize same : Kind.integer = kind at h
  cases h with
  | sign fixed =>
    subst same
    exact absurd fixed (by decide)
  | @word letters =>
    have spelled := Kind.ofWord_mem (String.ofList letters)
    rw [← same] at spelled
    exact absurd spelled (by decide)
  | @number digits proper all =>
    rw [String.toList_ofList]
    exact ⟨by simpa using proper, all⟩

theorem Lexical.of_keyword {kind : Kind} {literal : String} (h : Lexical kind literal)
    (reserved : kind ∈ Kind.keywords) : literal = kind.symbol := by
  cases h with
  | sign => rfl
  | @word letters =>
    have spelled := @Kind.ofWord_eq (String.ofList letters) _ rfl
    rwa [if_pos reserved] at spelled
  | number => exact absurd reserved (by decide)

theorem Lexical.of_sign {kind : Kind} {literal : String} (h : Lexical kind literal)
    (fixed : kind ∈ Kind.signs) : literal = kind.symbol := by
  cases h with
  | sign => rfl
  | @word letters =>
    have spelled := Kind.ofWord_mem (String.ofList letters)
    generalize Kind.ofWord (String.ofList letters) = kind at fixed spelled
    exact absurd spelled (by revert fixed; cases kind <;> decide)
  | number => exact absurd fixed (by decide)

theorem Lexical.keyword {kind : Kind} (reserved : kind ∈ Kind.keywords) : Lexical kind kind.symbol := by
  have spelled :
      Lexical (Kind.ofWord (String.ofList kind.symbol.toList)) (String.ofList kind.symbol.toList) := by
    apply Lexical.word
    · revert kind
      decide
    · apply List.all_eq_true.1
      revert kind
      decide
  rwa [String.ofList_toList, Kind.ofWord_symbol reserved] at spelled

/-- Words that are not reserved are identifiers. -/
theorem Lexical.identifier {literal : String} (proper : literal ≠ "")
    (letters : ∀ c ∈ literal.toList, isLetter c = true)
    (unreserved : ∀ kind ∈ Kind.keywords, literal ≠ kind.symbol) : Lexical .identifier literal := by
  have spelled : Lexical (Kind.ofWord (String.ofList literal.toList)) (String.ofList literal.toList) :=
    .word (by simpa using proper) letters
  have kind : Kind.ofWord literal = .identifier := by
    rw [Kind.ofWord, List.find?_eq_none.2, Option.getD_none]
    intro kind mem same
    exact unreserved kind mem (of_decide_eq_true same).symm
  rwa [String.ofList_toList, kind] at spelled

end LittleScript

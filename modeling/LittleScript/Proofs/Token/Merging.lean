import Mathlib.Data.List.Chain
import LittleScript.Proofs.Token.Joining

/-!
Which tokens may be written without a blank between them. All others run into each other, and then the
text is read as other tokens.
-/

namespace LittleScript

namespace Kind

def words : List Kind := identifier :: keywords

/-- Tokens of these kinds run into each other where nothing stands between them. -/
def MergesWith (first second : Kind) : Prop :=
  first ∈ words ∧ second ∈ words ∨ first = integer ∧ second = integer ∨
    first ∈ [assign, bang] ∧ second ∈ [assign, equal]

instance (first second : Kind) : Decidable (first.MergesWith second) :=
  inferInstanceAs (Decidable (_ ∨ _ ∨ _))

end Kind

/-- The literal is one of a token of the kind. This is what can be written, whereas an end mark cannot. -/
inductive Readable : Kind → String → Prop where
  | fixed {kind : Kind} (spelled : kind ∈ Kind.keywords ++ Kind.signs) : Readable kind kind.symbol
  | identifier {literal : String} (proper : literal ≠ "")
      (letters : ∀ c ∈ literal.toList, isLetter c = true)
      (unreserved : ∀ kind ∈ Kind.keywords, literal ≠ kind.symbol) : Readable .identifier literal
  | integer {literal : String} (proper : literal ≠ "") (digits : ∀ c ∈ literal.toList, c.isDigit = true) :
      Readable .integer literal
  | illegal {c : Char} (blank : isBlank c = false) (sign : Kind.ofChar? c = none)
      (letter : isLetter c = false) (digit : c.isDigit = false) : Readable .illegal (String.singleton c)

structure Spaced where
  gap : String
  kind : Kind
  literal : String
  blank : ∀ c ∈ gap.toList, isBlank c = true
  readable : Readable kind literal

namespace Spaced

def spelling (item : Spaced) : Kind × String := (item.kind, item.literal)

def Apart (a b : Spaced) : Prop := b.gap = "" → ¬ a.kind.MergesWith b.kind

def written : List Spaced → String
  | [] => ""
  | item :: items => item.gap ++ item.literal ++ written items

private theorem written_toList (item : Spaced) (items : List Spaced) :
    (written (item :: items)).toList =
      item.gap.toList ++ (item.literal.toList ++ (written items).toList) := by
  rw [written, String.toList_append, String.toList_append, List.append_assoc]

end Spaced

structure Kind.BeginsWith (kind : Kind) (c : Char) : Prop where
  blank : isBlank c = false
  letter : isLetter c = true ↔ kind ∈ words
  digit : c.isDigit = true ↔ kind = integer
  equals : c = '=' ↔ kind ∈ [assign, equal]

namespace Readable
variable {kind : Kind} {literal : String}

private theorem beginsWith (h : Readable kind literal) :
    ∃ c rest, literal.toList = c :: rest ∧ kind.BeginsWith c := by
  cases h with
  | fixed spelled =>
    cases kind
    all_goals first
      | exact ⟨_, _, rfl, by decide, by decide, by decide, by decide⟩
      | exact absurd spelled (by decide)
  | identifier proper letters =>
    cases spelled : literal.toList with
    | nil => exact absurd (String.toList_eq_nil_iff.1 spelled) proper
    | cons c rest =>
      have letter : isLetter c = true := letters c (spelled ▸ List.mem_cons_self)
      refine ⟨c, rest, rfl, isBlank_eq_false (.inl letter), iff_of_true letter (by decide), ?_, ?_⟩
      · refine iff_of_false (fun digit => ?_) (by decide)
        rw [isLetter_of_isDigit digit] at letter
        cases letter
      · refine iff_of_false ?_ (by decide)
        rintro rfl
        exact absurd letter (by decide)
  | integer proper digits =>
    cases spelled : literal.toList with
    | nil => exact absurd (String.toList_eq_nil_iff.1 spelled) proper
    | cons c rest =>
      have digit : c.isDigit = true := digits c (spelled ▸ List.mem_cons_self)
      refine ⟨c, rest, rfl, isBlank_eq_false (.inr digit), ?_, iff_of_true digit rfl, ?_⟩
      · rw [isLetter_of_isDigit digit]
        decide
      · refine iff_of_false ?_ (by decide)
        rintro rfl
        exact absurd digit (by decide)
  | @illegal c blank sign letter digit =>
    refine ⟨c, [], String.toList_singleton c, blank, ?_, ?_, ?_⟩
    · rw [letter]
      decide
    · rw [digit]
      decide
    · refine iff_of_false ?_ (by decide)
      rintro rfl
      cases sign

/-- A literal is read as such in front of everything that is free of it. -/
private theorem first (h : Readable kind literal) {c : Char} {rest following : List Char}
    (spelled : literal.toList = c :: rest) (free : kind.Free following) :
    Lexeme.first c (rest ++ following) = ⟨kind, literal.toList, following⟩ := by
  have known : Lexical kind literal →
      Lexeme.first c (rest ++ following) = ⟨kind, literal.toList, following⟩ := by
    intro lexical
    obtain ⟨d, others, spelled', -, read⟩ := lexical.first
    obtain ⟨rfl, rfl⟩ := List.cons.inj (spelled.symm.trans spelled')
    rw [read following free, spelled]
  cases h with
  | fixed fixed =>
    obtain reserved | sign := List.mem_append.1 fixed
    · exact known (.keyword reserved)
    · exact known (.sign sign)
  | identifier proper letters unreserved => exact known (.identifier proper letters unreserved)
  | integer proper digits =>
    have number : Lexical .integer (String.ofList literal.toList) := .number (by simpa using proper) digits
    rw [String.ofList_toList] at number
    exact known number
  | @illegal d blank sign letter digit =>
    have same : [d] = c :: rest := (String.toList_singleton d).symm.trans spelled
    obtain ⟨rfl, rfl⟩ := List.cons.inj same
    rw [List.nil_append, Lexeme.first_alone, sign, Option.getD_none, spelled]
    · simp [letter, digit]
    · rintro ⟨rfl | rfl, -⟩
      all_goals cases sign

end Readable

/-- A run of a class that is taken whole is not followed by a character of the class. -/
private theorem head?_dropWhile_eq_false {p : Char → Bool} {rest : List Char} :
    ∀ c ∈ (rest.dropWhile p).head?, p c = false := by
  intro c mem
  have stopped := List.head?_dropWhile_not p rest
  rw [mem] at stopped
  exact stopped

/-- The longest lexeme is taken. What follows it would not be read with it. -/
private theorem Lexeme.first_free (c : Char) (rest : List Char) :
    (first c rest).kind.Free (first c rest).rest := by
  by_cases own : isLetter c = true ∨ c.isDigit = true
  · rw [first_of_class own]
    split
    · intro d mem
      rw [Kind.continuedBy, if_pos (Kind.ofWord_mem _)]
      exact head?_dropWhile_eq_false d mem
    · exact head?_dropWhile_eq_false
  · by_cases paired : (c = '=' ∨ c = '!') ∧ rest.head? = some '='
    · obtain ⟨after, rfl⟩ := List.head?_eq_some_iff.1 paired.2
      obtain rfl | rfl := paired.1
      all_goals exact fun _ _ => rfl
    · rw [first_alone own paired]
      intro d mem
      have next : rest.head? = some d := mem
      have other : c = '=' ∨ c = '!' → decide (d = '=') = false :=
        fun half => decide_eq_false fun same => paired ⟨half, next.trans (congrArg some same)⟩
      unfold Kind.ofChar?
      split
      case h_7 => exact other (.inl rfl)
      case h_12 => exact other (.inr rfl)
      all_goals rfl

namespace Kind
variable {kind first second : Kind} {c : Char}

private theorem free_cons (rest : List Char) : kind.Free (c :: rest) ↔ ¬ kind.continuedBy c = true := by
  rw [Bool.not_eq_true]
  exact ⟨fun free => free c rfl, fun apart d mem => Option.some.inj mem ▸ apart⟩

/-- Nothing goes on over a blank. -/
private theorem not_continuedBy_blank (blank : isBlank c = true) : ¬ kind.continuedBy c = true := by
  simp only [isBlank, Bool.or_eq_true, decide_eq_true_iff] at blank
  obtain ((rfl | rfl) | rfl) | rfl := blank
  all_goals cases kind <;> decide

private theorem continuedBy_iff (begins : second.BeginsWith c) :
    first.continuedBy c = true ↔ first.MergesWith second := by
  rw [MergesWith, ← begins.letter, ← begins.digit, ← begins.equals]
  cases first <;> simp [continuedBy, words, keywords]

end Kind

/-- A token is free of another one with its blanks in front if the two are apart. -/
private theorem Spaced.free_written_iff (a b : Spaced) (items : List Spaced) :
    a.kind.Free (written (b :: items)).toList ↔ a.Apart b := by
  rw [written_toList, Apart]
  cases gap : b.gap.toList with
  | nil =>
    obtain ⟨c, rest, spelled, begins⟩ := b.readable.beginsWith
    have bare : b.gap = "" := String.toList_eq_nil_iff.1 gap
    rw [List.nil_append, spelled, List.cons_append, Kind.free_cons, Kind.continuedBy_iff begins]
    exact ⟨fun apart _ => apart, fun apart => apart bare⟩
  | cons c rest =>
    have blank : isBlank c = true := b.blank c (gap ▸ List.mem_cons_self)
    rw [List.cons_append, Kind.free_cons]
    refine iff_of_true (Kind.not_continuedBy_blank blank) fun bare => ?_
    rw [bare] at gap
    cases gap

namespace Lexer

private def spellings (lexer : Lexer) : List (Kind × String) := (lexer.collect []).1.map Token.spelling

private theorem spellings_blanks {blanks : List Char} (blank : ∀ c ∈ blanks, isBlank c = true) (rest : List Char)
    (here : Location) :
    spellings ⟨blanks ++ rest, here, false⟩ = spellings ⟨rest, here.after blanks, false⟩ := by
  rw [spellings, spellings, collect_blanks blank]

private theorem spellings_lexeme {c : Char} (proper : isBlank c = false) (rest : List Char) (here : Location) :
    spellings ⟨c :: rest, here, false⟩ =
      ((Lexeme.first c rest).kind, String.ofList (Lexeme.first c rest).taken) ::
        spellings ⟨(Lexeme.first c rest).rest, here.after (Lexeme.first c rest).taken, false⟩ := by
  have earlier := collect_append
    ⟨(Lexeme.first c rest).rest, here.after (Lexeme.first c rest).taken, false⟩ []
    [⟨(Lexeme.first c rest).kind, String.ofList (Lexeme.first c rest).taken, here⟩]
  rw [List.nil_append] at earlier
  rw [spellings, collect_lexeme proper, earlier]
  rfl

/-- The first of the written tokens is read back exactly if the text behind it does not go on with it. -/
private theorem spellings_cons_iff (item : Spaced) (items : List Spaced) (here : Location)
    (others : List (Kind × String)) :
    spellings ⟨(Spaced.written (item :: items)).toList, here, false⟩ = item.spelling :: others ↔
      item.kind.Free (Spaced.written items).toList ∧
        spellings ⟨(Spaced.written items).toList,
          (here.after item.gap.toList).after item.literal.toList, false⟩ = others := by
  obtain ⟨c, rest, spelled, begins⟩ := item.readable.beginsWith
  rw [Spaced.written_toList, spellings_blanks item.blank, spelled, List.cons_append,
    spellings_lexeme begins.blank]
  generalize (Spaced.written items).toList = following
  constructor
  · -- A lexeme with this literal ends where the literal ends, and every lexeme is free of what follows it.
    intro same
    obtain ⟨front, behind⟩ := List.cons.inj same
    obtain ⟨kind, literal⟩ := Prod.mk.inj front
    have taken : (Lexeme.first c (rest ++ following)).taken = c :: rest := by
      rw [← spelled, ← literal, String.toList_ofList]
    have left : (Lexeme.first c (rest ++ following)).rest = following := by
      have whole := Lexeme.first_taken_append_rest c (rest ++ following)
      rw [taken, ← List.cons_append] at whole
      exact List.append_cancel_left whole
    have free := Lexeme.first_free c (rest ++ following)
    rw [kind, left] at free
    rw [left, taken] at behind
    exact ⟨free, behind⟩
  · rintro ⟨free, behind⟩
    rw [item.readable.first spelled free, String.ofList_toList, spelled, behind]
    rfl

private theorem spellings_written_iff (items : List Spaced) (here : Location) :
    spellings ⟨(Spaced.written items).toList, here, false⟩ = items.map Spaced.spelling ↔
      items.IsChain Spaced.Apart := by
  induction items generalizing here with
  | nil =>
    have ended : token? ⟨(Spaced.written []).toList, here, false⟩ = none := rfl
    rw [spellings, collect_none ended]
    exact iff_of_true rfl .nil
  | cons item items ih =>
    rw [List.map_cons, spellings_cons_iff, ih]
    cases items with
    | nil =>
      have free : item.kind.Free (Spaced.written []).toList := fun _ none => nomatch none
      exact iff_of_true ⟨free, .nil⟩ (.singleton item)
    | cons next items => rw [Spaced.free_written_iff, List.isChain_cons_cons]

end Lexer

/-- Written tokens are read back exactly if no two that run into each other stand side by side. Those are
two words, two numbers, and an assignment sign or an exclamation mark in front of a sign that begins with
an equals sign. -/
theorem TokenStream.spelling_written_iff (items : List Spaced) :
    (ofText (Spaced.written items)).toList.map Token.spelling =
        items.map Spaced.spelling ++ [(.endOfInput, "")] ↔
      items.IsChain Spaced.Apart := by
  rw [← Lexer.spellings_written_iff items .start, toList, List.map_append]
  exact List.append_left_inj _

example : (TokenStream.ofText "a===!b").toList.map Token.spelling =
    [(.identifier, "a"), (.equal, "=="), (.assign, "="), (.bang, "!"), (.identifier, "b"),
      (.endOfInput, "")] := by
  decide +kernel

end LittleScript

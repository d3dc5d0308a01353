import LittleScript.Proofs.Shell.Color
import LittleScript.Proofs.Text.Quoted

/-!
Reading a plain listing. Its lines are found at the line feeds, the name of a kind ends at the first space, and the
rest of the line is a quoted literal. So a listing tells the tokens of the text, apart from their places.
-/

namespace LittleScript

def Kind.named? (name : List Char) : Option Kind := all.find? fun kind => kind.name.toList = name

private theorem Kind.named?_name (kind : Kind) : named? kind.name.toList = some kind := by
  cases kind <;> decide +kernel

private theorem Kind.space_not_mem_name (kind : Kind) : ' ' ∉ kind.name.toList := by
  cases kind <;> decide

private theorem ControlFree.withoutReturn_eq {line : List Char} (free : ControlFree line) :
    Source.withoutReturn line = line := by
  rw [Source.withoutReturn, if_neg]
  intro returned
  exact free.not_mem (by decide) (List.mem_of_getLast? returned)

/-- Written lines are found again, if they have no control characters. -/
private theorem textLines_writtenLines {lines : List String} (free : ∀ line ∈ lines, ControlFree line.toList) :
    Source.textLines (String.ofList (writtenLines lines)) = lines := by
  induction lines with
  | nil => rfl
  | cons line lines ih =>
    obtain ⟨first, others⟩ := List.forall_mem_cons.1 free
    have feed : '\n' ∉ line.toList := first.not_mem (by decide)
    have front : writtenLines (line :: lines) = line.toList ++ '\n' :: writtenLines lines := by
      rw [writtenLines, List.flatMap_cons, List.append_assoc]
      rfl
    rw [front, Source.textLines_feed feed, first.withoutReturn_eq, ih others, String.ofList_toList]

namespace Listing

def token? (line : String) : Option (Kind × String) :=
  let name := line.toList.takeWhile (· ≠ ' ')
  (Kind.named? name).bind fun kind =>
    (Quoted.unquote? (line.toList.drop (name.length + 1))).map fun literal => (kind, literal)

def read? (bytes : List UInt8) : Option (List (Kind × String)) :=
  (Source.decode? bytes).bind fun text => (Source.textLines text).mapM token?

private theorem token?_tokenLine (token : Token) : token? (Printer.tokenLine token) = some token.spelling := by
  have space : " ".toList = [' '] := rfl
  have line : (Printer.tokenLine token).toList =
      token.kind.name.toList ++ ' ' :: (Quoted.quote token.literal).toList := by
    simp only [Printer.tokenLine, String.toList_append, space, List.append_assoc, List.singleton_append]
  have letters : ∀ c ∈ token.kind.name.toList, decide (c ≠ ' ') = true := fun c mem =>
    decide_eq_true fun same => token.kind.space_not_mem_name (same ▸ mem)
  have name : (Printer.tokenLine token).toList.takeWhile (· ≠ ' ') = token.kind.name.toList := by
    rw [line, List.takeWhile_append_of_pos letters, List.takeWhile_cons_of_neg (by decide), List.append_nil]
  have quoted : (Printer.tokenLine token).toList.drop (token.kind.name.toList.length + 1) =
      (Quoted.quote token.literal).toList := by
    rw [line, List.append_cons]
    exact List.drop_left' (by rw [List.length_append, List.length_singleton])
  rw [token?]
  simp only [name, quoted, Kind.named?_name, Quoted.unquote?_quote, Option.bind_some, Option.map_some]
  rfl

/-- A plain listing is read as the tokens it was written for. -/
private theorem read?_tokens (text : String) :
    read? (Printer.tokens ⟨false⟩ text).output.2 = some ((TokenStream.ofText text).tokens.map Token.spelling) := by
  have lines := textLines_writtenLines (Printer.controlFree_shownLines .tokens text)
  rw [Printer.output_tokens, read?, Source.decode?_encode, Option.bind_some, lines, Printer.shownLines, List.mapM_map]
  have each : token? ∘ Printer.tokenLine = fun token => pure token.spelling := funext token?_tokenLine
  rw [each, List.mapM_pure]
  rfl

end Listing

/-- The tokens of a text can be read off its plain listing, and so the listings of two texts are the same exactly if
the tokens agree one by one in kind and literal, whatever characters the texts have. -/
theorem listing_tells_spellings (a b : String) :
    let listing := fun text => (Printer.tokens ⟨false⟩ text).output.2
    let spellings := fun text => (TokenStream.ofText text).tokens.map Token.spelling
    Listing.read? (listing a) = some (spellings a) ∧ (listing a = listing b ↔ spellings a = spellings b) := by
  intro listing spellings
  have read (text : String) : Listing.read? (listing text) = some (spellings text) := Listing.read?_tokens text
  refine ⟨read a, ?_, ?_⟩
  · intro same
    have both := read a
    rw [same, read b] at both
    exact (Option.some.inj both).symm
  · intro same
    -- a line depends on nothing but the kind and the literal
    let line : Kind × String → String := fun spelling => spelling.1.name ++ " " ++ Quoted.quote spelling.2
    have written (text : String) : listing text = Source.encode (writtenLines ((spellings text).map line)) := by
      rw [List.map_map]
      exact congrArg Prod.snd (Printer.output_tokens text)
    rw [written, written, same]

/-- A character that is not shown, one that has a letter, and one that is shown as it is. -/
example : Listing.read? "Illegal \"\\u\x7b1b\x7d\"\nIllegal \"\\\"\"\nIllegal \"é\"\n".toUTF8.data.toList =
    some [(.illegal, "\x1b"), (.illegal, "\""), (.illegal, "é")] := by decide +kernel

end LittleScript

import Mathlib.Data.List.Basic
import LittleScript.Source.Lines

/-!
Lines of bytes are lines of text. In UTF-8 the bytes of a line feed and of a carriage return stand for these
characters and for nothing else, so the bytes of a text can be divided into lines before they are decoded.
-/

namespace LittleScript.Source

def encode (text : List Char) : List UInt8 := text.flatMap String.utf8EncodeChar

theorem encode_append (a b : List Char) : encode (a ++ b) = encode a ++ encode b := List.flatMap_append

private theorem encode_singleton (c : Char) : encode [c] = String.utf8EncodeChar c := List.append_nil _

/-- What was encoded is decoded again. -/
theorem decode?_encode (text : List Char) : decode? (encode text) = some (String.ofList text) := by
  have valid : (encode text).toByteArray.IsValidUTF8 := ⟨text, rfl⟩
  rw [decode?, String.fromUTF8?, dif_pos valid, Option.some.injEq, ← String.toByteArray_inj,
    String.toByteArray_ofList]
  rfl

/-- Bytes that can be decoded are those of the text. -/
theorem eq_encode_of_decode? {bytes : List UInt8} {text : String} (h : decode? bytes = some text) :
    bytes = encode text.toList := by
  rw [decode?, String.fromUTF8?] at h
  split at h
  · have same : bytes.toByteArray = text.toByteArray := congrArg String.toByteArray (Option.some.inj h)
    rw [← String.utf8Encode_toList] at same
    have data := congrArg (fun array => array.data.toList) same
    rwa [List.toList_data_toByteArray, List.utf8Encode, List.toList_data_toByteArray] at data
  · cases h

/-- A byte below 128 is a character of its own. -/
private theorem char_of_low_byte {c : Char} {byte : UInt8} (low : byte.toNat < 128)
    (mem : byte ∈ String.utf8EncodeChar c) : c.val.toNat = byte.toNat := by
  unfold String.utf8EncodeChar at mem
  dsimp only at mem
  split at mem
  · rename_i small
    rw [List.mem_singleton.1 mem, UInt8.toNat_ofNat_of_lt' (Nat.lt_of_le_of_lt small (by decide))]
  -- every byte of a longer encoding has its highest bit set
  all_goals
    exfalso
    repeat' split at mem
    all_goals
      simp only [List.mem_cons, List.not_mem_nil, or_false] at mem
      rcases mem with rfl | rfl | rfl | rfl
      all_goals
        simp only [UInt8.toNat_ofNat'] at low
        omega

/-- A character below 128 has one byte. -/
private theorem utf8EncodeChar_of_low {c : Char} {byte : UInt8} (low : byte.toNat < 128)
    (own : c.val.toNat = byte.toNat) : String.utf8EncodeChar c = [byte] := by
  have small : c.val.toNat ≤ 127 := by omega
  rw [String.utf8EncodeChar, if_pos small, own, UInt8.ofNat_toNat]

/-- A character below 128 is in a text as often as its byte is among those of the text. -/
theorem count_encode {text : List Char} {c : Char} {byte : UInt8} (low : byte.toNat < 128)
    (own : c.val.toNat = byte.toNat) : (encode text).count byte = text.count c := by
  induction text with
  | nil => rfl
  | cons d text ih =>
    have front : encode (d :: text) = String.utf8EncodeChar d ++ encode text := List.flatMap_cons
    rw [front, List.count_append, ih, List.count_cons, Nat.add_comm]
    by_cases same : d = c
    · rw [same, utf8EncodeChar_of_low low own, List.count_singleton_self, if_pos BEq.rfl]
    · have absent : byte ∉ String.utf8EncodeChar d := fun mem =>
        same (Char.ext (UInt32.toNat_inj.1 ((char_of_low_byte low mem).trans own.symm)))
      rw [List.count_eq_zero_of_not_mem absent, if_neg (by simpa using same)]

theorem mem_encode {text : List Char} {c : Char} {byte : UInt8} (low : byte.toNat < 128)
    (own : c.val.toNat = byte.toNat) : byte ∈ encode text ↔ c ∈ text := by
  rw [← List.count_pos_iff, count_encode low own, List.count_pos_iff]

/-! ### Lines of bytes -/

private theorem linesFrom_append {run : List UInt8} (free : lineFeed ∉ run) (latest rest : List UInt8) :
    linesFrom latest (run ++ rest) = linesFrom (run.reverse ++ latest) rest := by
  induction run generalizing latest with
  | nil => rfl
  | cons byte run ih =>
    rw [List.mem_cons, not_or] at free
    obtain ⟨other, later⟩ := free
    rw [List.cons_append, linesFrom, if_neg (Ne.symm other), ih later, List.reverse_cons, List.append_assoc]
    rfl

/-- Bytes up to a line feed are a line. -/
private theorem lines_feed {run : List UInt8} (free : lineFeed ∉ run) (rest : List UInt8) :
    lines (run ++ lineFeed :: rest) = withoutEnding run.reverse :: lines rest := by
  rw [lines, linesFrom_append free, linesFrom, if_pos rfl, List.append_nil, lines]

/-- Bytes without a line feed are one line, or none if there are no bytes. -/
private theorem lines_last {run : List UInt8} (free : lineFeed ∉ run) :
    lines run = if run.isEmpty then [] else [run] := by
  have all := linesFrom_append free [] []
  rw [List.append_nil, List.append_nil, linesFrom, List.reverse_reverse, List.isEmpty_reverse] at all
  exact all

private theorem withoutEnding_append (run : List UInt8) (last : UInt8) :
    withoutEnding (run ++ [last]).reverse = if last = carriageReturn then run else run ++ [last] := by
  rw [List.reverse_append, List.reverse_singleton, List.singleton_append, withoutEnding]
  split
  · rw [List.reverse_reverse]
  · rw [List.reverse_cons, List.reverse_reverse]

/-! ### Lines of text -/

def withoutReturn (line : List Char) : List Char :=
  if line.getLast? = some '\r' then line.dropLast else line

/-- The lines of a text: what is between line feeds, where a carriage return in front of a line feed belongs
to the ending, and where nothing behind the last line feed is no line. -/
def textLines (text : String) : List String :=
  let pieces := text.toList.splitOn '\n'
  (pieces.dropLast.map withoutReturn ++ (pieces.getLast?.filter (!·.isEmpty)).toList).map String.ofList

/-- A text ends without a line feed or goes on behind one. -/
theorem feed_induction {motive : List Char → Prop} (last : ∀ text, '\n' ∉ text → motive text)
    (feed : ∀ front back, '\n' ∉ front → motive back → motive (front ++ '\n' :: back)) (text : List Char) :
    motive text := by
  by_cases there : '\n' ∈ text
  · obtain ⟨front, back, rfl, free⟩ := List.eq_append_cons_of_mem there
    exact feed front back free (feed_induction last feed back)
  · exact last text there
termination_by text.length

theorem textLines_feed {front : List Char} (free : '\n' ∉ front) (back : List Char) :
    textLines (String.ofList (front ++ '\n' :: back)) =
      String.ofList (withoutReturn front) :: textLines (String.ofList back) := by
  have more := List.splitOn_ne_nil '\n' back
  rw [textLines, textLines, String.toList_ofList, String.toList_ofList,
    List.splitOn_append_cons_self_of_not_mem free]
  simp only [List.dropLast_cons_of_ne_nil more, List.getLast?_cons_of_ne_nil more, List.map_cons,
    List.cons_append]

theorem textLines_last {text : List Char} (free : '\n' ∉ text) :
    textLines (String.ofList text) = if text.isEmpty then [] else [String.ofList text] := by
  rw [textLines, String.toList_ofList, List.splitOn_eq_singleton free]
  cases text <;> rfl

/-- Of the bytes of a line the last one tells whether it ends with a carriage return. -/
private theorem withoutEnding_encode (line : List Char) :
    withoutEnding (encode line).reverse = encode (withoutReturn line) := by
  obtain rfl | ⟨front, c, rfl⟩ := List.eq_nil_or_concat' line
  · rfl
  · rw [withoutReturn, List.getLast?_concat, List.dropLast_concat]
    split
    · rename_i returned
      obtain rfl := Option.some.inj returned
      have bytes : encode (front ++ ['\r']) = encode front ++ [carriageReturn] := encode_append front ['\r']
      rw [bytes, withoutEnding_append, if_pos rfl]
    · rename_i other
      have proper := String.utf8EncodeChar_ne_nil (c := c)
      have bytes : encode (front ++ [c]) =
          (encode front ++ (String.utf8EncodeChar c).dropLast) ++ [(String.utf8EncodeChar c).getLast proper] := by
        rw [List.append_assoc, List.dropLast_concat_getLast, encode_append, encode_singleton]
      have last : (String.utf8EncodeChar c).getLast proper ≠ carriageReturn := by
        intro same
        have mem := List.getLast_mem proper
        rw [same] at mem
        have value : c.val.toNat = '\r'.val.toNat := char_of_low_byte (by decide) mem
        exact other (congrArg some (Char.ext (UInt32.toNat_inj.1 value)))
      rw [bytes, withoutEnding_append, if_neg last]

/-- The lines of the bytes of a text are the bytes of its lines. -/
theorem lines_encode (text : String) :
    lines (encode text.toList) = (textLines text).map fun line => encode line.toList := by
  suffices all : ∀ text : List Char,
      lines (encode text) = (textLines (String.ofList text)).map fun line => encode line.toList by
    have own := all text.toList
    rwa [String.ofList_toList] at own
  intro text
  induction text using feed_induction with
  | last text free =>
    have freeBytes : lineFeed ∉ encode text := fun mem => free ((mem_encode (by decide) (by decide)).1 mem)
    rw [textLines_last free, lines_last freeBytes]
    cases text with
    | nil => rfl
    | cons c text =>
      have proper : (encode (c :: text)).isEmpty = false := by
        rw [List.isEmpty_eq_false_iff, encode, List.flatMap_cons]
        exact List.append_ne_nil_of_left_ne_nil String.utf8EncodeChar_ne_nil _
      rw [proper]
      simp only [List.isEmpty_cons, Bool.false_eq_true, if_false, List.map_singleton, String.toList_ofList]
  | feed front back free ih =>
    have freeBytes : lineFeed ∉ encode front := fun mem => free ((mem_encode (by decide) (by decide)).1 mem)
    have bytes : encode (front ++ '\n' :: back) = encode front ++ lineFeed :: encode back := by
      rw [encode_append, encode, encode, List.flatMap_cons]
      rfl
    rw [bytes, lines_feed freeBytes, textLines_feed free, ih, List.map_cons, withoutEnding_encode,
      String.toList_ofList]

end LittleScript.Source

/-!
The lines of an input in bytes. A line ends at a line feed, and one carriage return before that
belongs to the ending. What follows the last line feed is a line only if it is not empty.
-/

namespace LittleScript.Source

def lineFeed : UInt8 := 10

def carriageReturn : UInt8 := 13

/-- A line, given last byte first, without the carriage return of its ending. -/
def withoutEnding (latest : List UInt8) : List UInt8 :=
  match latest with
  | [] => []
  | last :: before => (if last = carriageReturn then before else latest).reverse

/-- The lines of `input` behind the part `latest` of a line, which is given last byte first. -/
def linesFrom (latest : List UInt8) : List UInt8 → List (List UInt8)
  | [] => if latest.isEmpty then [] else [latest.reverse]
  | byte :: input =>
    if byte = lineFeed then withoutEnding latest :: linesFrom [] input
    else linesFrom (byte :: latest) input

def lines (input : List UInt8) : List (List UInt8) := linesFrom [] input

example : lines [97, 13, 10, 10, 98, 13] = [[97], [], [98, 13]] := by decide

def decode? (bytes : List UInt8) : Option String := String.fromUTF8? bytes.toByteArray

end LittleScript.Source

/-! # Texts

Classes of characters as ranges of codes, texts without blanks at their ends, and lines. A line ends
at a newline or at the end of the text. A carriage return right before a newline belongs to the
line's end; a text that ends with a newline has no empty line after it. Bytes, as they come from a
file or a stream, are read as UTF-8 line by line.
-/

namespace TapeLang

/-- Whether a code lies in one of the ranges, which ascend. -/
def inRanges : List (Nat × Nat) → Nat → Bool
  | [], _ => false
  | (first, last) :: rest, code =>
    if code < first then false else code ≤ last || inRanges rest code

/-- The characters of the White_Space property. -/
def isBlank (c : Char) : Bool :=
  let n := c.toNat
  (9 ≤ n && n ≤ 13) || n == 32 || n == 0x85 || n == 0xA0 || n == 0x1680 ||
    (0x2000 ≤ n && n ≤ 0x200A) || n == 0x2028 || n == 0x2029 || n == 0x202F || n == 0x205F ||
    n == 0x3000

/-- A list without the elements at its end that satisfy `p`. -/
def dropEndWhile {α : Type} (p : α → Bool) (xs : List α) : List α :=
  (xs.reverse.dropWhile p).reverse

/-- A text without blanks at either end. -/
def trimBlanks (text : String) : String :=
  String.ofList (dropEndWhile isBlank (text.toList.dropWhile isBlank))

/-- The line held in reverse, its end being a newline. -/
def closeLine : List Char → String
  | '\r' :: rest => String.ofList rest.reverse
  | rest => String.ofList rest.reverse

/-- Read on with the current line and the lines before it in reverse. -/
def linesFrom : List Char → List Char → List String → List String
  | [], [], done => done.reverse
  | [], current, done => (String.ofList current.reverse :: done).reverse
  | '\n' :: rest, current, done => linesFrom rest [] (closeLine current :: done)
  | c :: rest, current, done => linesFrom rest (c :: current) done

def textLines (text : String) : List String :=
  linesFrom text.toList [] []

/-- The text that bytes encode. -/
def decodeText? (bytes : ByteArray) : Option String := String.fromUTF8? bytes

/-- Cut bytes behind each newline. The line in progress is kept in reverse. -/
def cutLines : List UInt8 → List UInt8 → List ByteArray
  | [], [] => []
  | [], line => [⟨line.reverse.toArray⟩]
  | b :: rest, line =>
    if b = 10 then ⟨(b :: line).reverse.toArray⟩ :: cutLines rest []
    else cutLines rest (b :: line)

/-- The lines of a stream, each with its newline. -/
def byteLines (bytes : ByteArray) : List ByteArray := cutLines bytes.toList []

/-- The lines up to the first one that is no text, and whether there is such a line. -/
def readableLines : List ByteArray → List String × Bool
  | [] => ([], false)
  | line :: rest =>
    match decodeText? line with
    | none => ([], true)
    | some text =>
      match readableLines rest with
      | (lines, broken) => (text :: lines, broken)

/-- A line without its ending: a newline, or a carriage return and a newline. -/
def chompLine (line : String) : String :=
  match line.toList.reverse with
  | '\n' :: '\r' :: rest => String.ofList rest.reverse
  | '\n' :: rest => String.ofList rest.reverse
  | _ => line

end TapeLang

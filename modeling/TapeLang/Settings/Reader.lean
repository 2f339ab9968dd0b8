import TapeLang.Settings.Value

/-! # Reading values

Settings are stored as JSON text. A number with a point or an exponent is a binary number even if it
is whole, and so is an integer out of range. Of two fields with one name the later counts.
-/

namespace TapeLang

/-- A number as it is written. -/
structure Literal where
  negative : Bool
  whole : List Nat
  /-- The digits after the point, if there is one. -/
  fraction : Option (List Nat)
  exponent : Option Int
  deriving DecidableEq, Repr

namespace Literal

/-- The number of the digits read on from `n`, while it stays below 2^64, and how many digits are
left. -/
def gather : List Nat → Nat → Nat × Nat
  | [], n => (n, 0)
  | d :: rest, n =>
    if 10 * n + d < 18446744073709551616 then gather rest (10 * n + d)
    else (n, rest.length + 1)

/-- A power of ten in double precision. -/
def power (n : Nat) : BinaryNumber := BinaryFormat.double.ofNat (Nat.pow 10 n)

/-- `x * 10 ^ exponent` as one rounded product or quotient, if it is in range. A divisor that is out
of range itself is taken in steps. -/
def scale : Nat → BinaryNumber → Int → Option BinaryNumber
  | 0, _, _ => some .zero
  | fuel + 1, x, exponent =>
    if x.mantissa = 0 then some .zero
    else if 308 < exponent then none
    else if 0 ≤ exponent then
      let y := BinaryFormat.double.mul x (power exponent.toNat)
      if y.exponent ≤ 971 then some y else none
    else if -308 ≤ exponent then some (BinaryFormat.double.div x (power (-exponent).toNat))
    else scale fuel (BinaryFormat.double.div x (power 308)) (exponent + 308)

/-- The binary number of a literal with a point, an exponent or more digits than an integer has. -/
def binary? (l : Literal) : Option BinaryNumber :=
  let (n, left) := gather l.whole 0
  let places := l.fraction.getD []
  let (n, unread) := gather places n
  let exponent : Int := left - (places.length - unread : Nat) + l.exponent.getD 0
  scale 4 (BinaryFormat.double.ofNat n) exponent

def value? (l : Literal) : Option Value :=
  match l, gather l.whole 0 with
  | ⟨false, _, none, none⟩, (n, 0) => some (.int n)
  | ⟨true, _, none, none⟩, (n, 0) =>
    if 0 < n ∧ n ≤ 9223372036854775808 then some (.int (-(n : Int)))
    else some (.float true (BinaryFormat.double.ofNat n))
  | l, _ => l.binary?.map (.float l.negative)

end Literal

/-! Readers take a value from the start of a text and give the rest of it. -/

namespace Value

def skipBlanks (cs : List Char) : List Char :=
  cs.dropWhile fun c => c = ' ' || c = '\n' || c = '\t' || c = '\r'

def readDigits (cs : List Char) : List Nat × List Char :=
  ((cs.takeWhile Char.isDigit).map fun c => c.toNat - 48, cs.dropWhile Char.isDigit)

def readSign : List Char → Bool × List Char
  | '-' :: rest => (true, rest)
  | cs => (false, cs)

/-- Digits without a zero before others. -/
def readWhole (cs : List Char) : Option (List Nat × List Char) :=
  match readDigits cs with
  | ([], _) => none
  | (0 :: _ :: _, _) => none
  | (digits, rest) => some (digits, rest)

def readFraction : List Char → Option (Option (List Nat) × List Char)
  | '.' :: rest =>
    match readDigits rest with
    | ([], _) => none
    | (digits, rest) => some (some digits, rest)
  | cs => some (none, cs)

def readExponent : List Char → Option (Option Int × List Char)
  | c :: rest =>
    if c = 'e' ∨ c = 'E' then
      let (negative, rest) := match rest with
        | '+' :: rest => (false, rest)
        | rest => readSign rest
      match readDigits rest with
      | ([], _) => none
      | (digits, rest) =>
        let n : Nat := digits.foldl (fun n d => 10 * n + d) 0
        some (some (if negative then -(n : Int) else n), rest)
    else some (none, c :: rest)
  | [] => some (none, [])

def readNumber (cs : List Char) : Option (Value × List Char) := do
  let (negative, cs) := readSign cs
  let (whole, cs) ← readWhole cs
  let (fraction, cs) ← readFraction cs
  let (exponent, cs) ← readExponent cs
  let v ← (Literal.mk negative whole fraction exponent).value?
  return (v, cs)

def hexDigit? (c : Char) : Option Nat :=
  if c.isDigit then some (c.toNat - 48)
  else if 'a' ≤ c ∧ c ≤ 'f' then some (c.toNat - 87)
  else if 'A' ≤ c ∧ c ≤ 'F' then some (c.toNat - 55)
  else none

/-- The character that a letter after a backslash stands for. -/
def escaped? : Char → Option Char
  | '"' => some '"'
  | '\\' => some '\\'
  | '/' => some '/'
  | 'b' => some '\x08'
  | 'f' => some '\x0c'
  | 'n' => some '\n'
  | 'r' => some '\r'
  | 't' => some '\t'
  | _ => none

/-- Where a reader is inside a text. -/
inductive TextState
  | plain
  | escape
  /-- Before the last `left` digits of a code, maybe behind a high surrogate. -/
  | code (left value : Nat) (high : Option Nat)
  /-- Behind a high surrogate. -/
  | surrogate (high : Nat)
  | surrogateEscape (high : Nat)

/-- The character of a code, or of a pair of surrogates. -/
def codeChar? (value : Nat) : Option Nat → Option Char
  | none => if 0xD800 ≤ value ∧ value ≤ 0xDFFF then none else some (Char.ofNat value)
  | some high =>
    if 0xDC00 ≤ value ∧ value ≤ 0xDFFF then
      some (Char.ofNat (0x10000 + (high - 0xD800) * 0x400 + (value - 0xDC00)))
    else none

/-- A text up to its closing quote, with `before` in reverse before it. -/
def readText : TextState → List Char → List Char → Option (String × List Char)
  | _, _, [] => none
  | .plain, before, c :: rest =>
    if c = '"' then some (String.ofList before.reverse, rest)
    else if c = '\\' then readText .escape before rest
    else if c.toNat < 32 then none
    else readText .plain (c :: before) rest
  | .escape, before, c :: rest =>
    if c = 'u' then readText (.code 4 0 none) before rest
    else
      match escaped? c with
      | some c => readText .plain (c :: before) rest
      | none => none
  | .code left value high, before, c :: rest =>
    match hexDigit? c with
    | none => none
    | some d =>
      let value := 16 * value + d
      if 1 < left then readText (.code (left - 1) value high) before rest
      else if high = none ∧ 0xD800 ≤ value ∧ value < 0xDC00 then
        readText (.surrogate value) before rest
      else
        match codeChar? value high with
        | some c => readText .plain (c :: before) rest
        | none => none
  | .surrogate high, before, c :: rest =>
    if c = '\\' then readText (.surrogateEscape high) before rest else none
  | .surrogateEscape high, before, c :: rest =>
    if c = 'u' then readText (.code 4 0 (some high)) before rest else none

/-- Put a field in its place. A field of that name gives way. -/
def insertField (name : String) (v : Value) : List (String × Value) → List (String × Value)
  | [] => [(name, v)]
  | (other, w) :: rest =>
    if name < other then (name, v) :: (other, w) :: rest
    else if name = other then (name, v) :: rest
    else (other, w) :: insertField name v rest

mutual

/-- A value with at most `depth` lists and records around one another. -/
def readValue : Nat → Nat → List Char → Option (Value × List Char)
  | 0, _, _ => none
  | fuel + 1, depth, cs =>
    match skipBlanks cs, depth with
    | 'n' :: 'u' :: 'l' :: 'l' :: rest, _ => some (.null, rest)
    | 't' :: 'r' :: 'u' :: 'e' :: rest, _ => some (.bool true, rest)
    | 'f' :: 'a' :: 'l' :: 's' :: 'e' :: rest, _ => some (.bool false, rest)
    | '"' :: rest, _ => (readText .plain [] rest).map fun (s, rest) => (.text s, rest)
    | '[' :: rest, depth + 1 =>
      match skipBlanks rest with
      | ']' :: rest => some (.list [], rest)
      | rest => readItems fuel depth [] rest
    | '\x7b' :: rest, depth + 1 =>
      match skipBlanks rest with
      | '\x7d' :: rest => some (.record [], rest)
      | rest => readFields fuel depth [] rest
    | cs, _ => readNumber cs

/-- The items of a list up to its end, with `before` in reverse before them. -/
def readItems : Nat → Nat → List Value → List Char → Option (Value × List Char)
  | 0, _, _, _ => none
  | fuel + 1, depth, before, cs =>
    match readValue fuel depth cs with
    | none => none
    | some (v, rest) =>
      match skipBlanks rest with
      | ',' :: rest => readItems fuel depth (v :: before) rest
      | ']' :: rest => some (.list (v :: before).reverse, rest)
      | _ => none

/-- The fields of a record up to its end, beside the fields `others`. -/
def readFields : Nat → Nat → List (String × Value) → List Char → Option (Value × List Char)
  | 0, _, _, _ => none
  | fuel + 1, depth, others, cs =>
    match skipBlanks cs with
    | '"' :: rest =>
      match readText .plain [] rest with
      | none => none
      | some (name, rest) =>
        match skipBlanks rest with
        | ':' :: rest =>
          match readValue fuel depth rest with
          | none => none
          | some (v, rest) =>
            match skipBlanks rest with
            | ',' :: rest => readFields fuel depth (insertField name v others) rest
            | '\x7d' :: rest => some (.record (insertField name v others), rest)
            | _ => none
        | _ => none
    | _ => none

end

/-- How many lists and records may stand around one another. -/
def maxDepth : Nat := 127

/-- The value of a JSON text. -/
def read? (text : String) : Option Value :=
  let cs := text.toList
  match readValue (2 * cs.length + 2) maxDepth cs with
  | some (v, rest) => if skipBlanks rest = [] then some v else none
  | none => none

end Value

end TapeLang

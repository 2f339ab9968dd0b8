import TapeLang.Number.Decimal
import TapeLang.Text.Hidden

/-! # Values

The data model of stored settings: numbers, texts, truth values, lists and records. Integers from
-2^63 to 2^64 - 1 are kept as they are; every other number is a binary number in double precision.
-/

namespace TapeLang

inductive Value
  | null
  | bool (b : Bool)
  | int (n : Int)
  | float (negative : Bool) (magnitude : BinaryNumber)
  | text (s : String)
  | list (items : List Value)
  /-- Fields in the order of their names. -/
  | record (fields : List (String × Value))
  deriving Inhabited

namespace Value

/-- A character inside quotes. -/
def quotedChar (c : Char) : String :=
  if c = '"' then "\\\""
  else if c = '\\' then "\\\\"
  else if c = '\n' then "\\n"
  else if c = '\r' then "\\r"
  else if c = '\t' then "\\t"
  else if c = '\x00' then "\\0"
  else if isHidden c then
    "\\u\x7b" ++ String.ofList (Nat.toDigits 16 c.toNat) ++ "\x7d"
  else String.singleton c

def quoted (s : String) : String :=
  "\"" ++ String.join (s.toList.map quotedChar) ++ "\""

/-- How a value is called when another one was expected. -/
def description : Value → String
  | .null => "null"
  | .bool b => "boolean `" ++ toString b ++ "`"
  | .int n => "integer `" ++ toString n ++ "`"
  | .float negative x =>
    let sign := if negative then "-" else ""
    "floating point `" ++ sign ++ (Decimal.shortest .double x).text ++ "`"
  | .text s => "string " ++ quoted s
  | .list _ => "sequence"
  | .record _ => "map"

end Value

end TapeLang

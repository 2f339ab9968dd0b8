import TapeLang.Number.Binary

/-! # Decimal text of binary numbers

A set number of places, or the fewest digits from which the number can be read back.
-/

namespace TapeLang

/-- The digits of `n`, with zeros before them up to `width` digits. -/
def paddedDigits (width n : Nat) : String :=
  let digits := toString n
  String.ofList (List.replicate (width - digits.length) '0') ++ digits

namespace BinaryNumber

/-- Decimal text with `places` digits after the point, rounded from the exact value, a half to the
even digit. -/
def fixed (places : Nat) (x : BinaryNumber) : String :=
  let (num, den) := x.ratio
  let unit := Nat.pow 10 places
  let units := roundDiv (num * unit) den
  toString (units / unit) ++ "." ++ paddedDigits places (units % unit)

end BinaryNumber

/-- `digits * 10 ^ exponent`. -/
structure Decimal where
  digits : Nat
  exponent : Int
  deriving DecidableEq, Repr

namespace Decimal

def ratio (d : Decimal) : Nat × Nat :=
  match d.exponent with
  | .ofNat e => (d.digits * Nat.pow 10 e, 1)
  | .negSucc e => (d.digits, Nat.pow 10 (e + 1))

/-- The number of `format` that a decimal reads as. -/
def read (format : BinaryFormat) (d : Decimal) : BinaryNumber :=
  format.round d.ratio.1 d.ratio.2

/-- Drop zeros at the end of the digits. -/
def strip : Nat → Decimal → Decimal
  | 0, d => d
  | fuel + 1, d =>
    if d.digits ≠ 0 ∧ d.digits % 10 = 0 then strip fuel ⟨d.digits / 10, d.exponent + 1⟩ else d

/-- Of the multiples of `10 ^ exponent` next to `x`, one that reads as `x`, the nearer first. -/
def onGrid? (format : BinaryFormat) (x : BinaryNumber) (exponent : Int) : Option Decimal :=
  let (num, den) := x.ratio
  let (n, d) := match exponent with
    | .ofNat e => (num, den * Nat.pow 10 e)
    | .negSucc e => (num * Nat.pow 10 (e + 1), den)
  let low := n / d
  let nearest := roundDiv n d
  let other := if nearest = low then low + 1 else low
  [nearest, other].map (fun digits => (⟨digits, exponent⟩ : Decimal))
    |>.find? (fun candidate => candidate.read format == x)

/-- The first grid, from coarse to fine, with a decimal that reads as `x`. -/
def search (format : BinaryFormat) (x : BinaryNumber) (exponent : Int) : Nat → Decimal
  | 0 => ⟨0, 0⟩
  | fuel + 1 =>
    match onGrid? format x exponent with
    | some d => strip 400 d
    | none => search format x (exponent - 1) fuel

/-- A decimal with the fewest digits that reads as `x`. -/
def shortest (format : BinaryFormat) (x : BinaryNumber) : Decimal :=
  if x.mantissa = 0 then ⟨0, 0⟩ else search format x 309 700

/-- Text of a decimal of the given digits: positional with a point if the number is at least
0.00001 and below 10^16, else one digit before the point and an exponent with its sign. -/
def text (d : Decimal) : String :=
  let digits := toString d.digits
  let length := digits.length
  let magnitude : Int := length + d.exponent
  if d.digits = 0 then "0.0"
  else if 0 ≤ d.exponent ∧ magnitude ≤ 16 then
    digits ++ String.ofList (List.replicate d.exponent.toNat '0') ++ ".0"
  else if 0 < magnitude ∧ magnitude ≤ 16 then
    (digits.take magnitude.toNat).toString ++ "." ++ (digits.drop magnitude.toNat).toString
  else if -5 < magnitude ∧ magnitude ≤ 0 then
    "0." ++ String.ofList (List.replicate (-magnitude).toNat '0') ++ digits
  else
    let rest := (digits.drop 1).toString
    let point := if rest = "" then "" else "." ++ rest
    let sign := if 0 < magnitude then "+" else ""
    (digits.take 1).toString ++ point ++ "e" ++ sign ++ toString (magnitude - 1)

end Decimal

end TapeLang

/-! # Binary floating point

Nonnegative numbers `mantissa * 2 ^ exponent`, and rounding of quotients to a binary format, to
nearest with ties to the even mantissa. All arithmetic is exact; every operation of a format is the
exact result, rounded once.
-/

namespace TapeLang

/-- The quotient rounded to the nearest integer, a half to the even one. -/
def roundDiv (num den : Nat) : Nat :=
  let q := num / den
  let r := num % den
  if den < 2 * r ∨ (2 * r = den ∧ q % 2 = 1) then q + 1 else q

structure BinaryNumber where
  mantissa : Nat
  exponent : Int
  deriving DecidableEq, Repr

namespace BinaryNumber

def zero : BinaryNumber := ⟨0, 0⟩

/-- Numerator and denominator. -/
def ratio (x : BinaryNumber) : Nat × Nat :=
  match x.exponent with
  | .ofNat e => (x.mantissa * Nat.pow 2 e, 1)
  | .negSucc e => (x.mantissa, Nat.pow 2 (e + 1))

end BinaryNumber

/-- How many bits a mantissa has, and the least exponent. -/
structure BinaryFormat where
  precision : Nat
  minExponent : Int
  deriving DecidableEq, Repr

namespace BinaryFormat

def single : BinaryFormat := ⟨24, -149⟩

def double : BinaryFormat := ⟨53, -1074⟩

/-- `num / den` divided by `2 ^ e`, as a fraction. -/
def scale (num den : Nat) : Int → Nat × Nat
  | .ofNat e => (num, den * Nat.pow 2 e)
  | .negSucc e => (num * Nat.pow 2 (e + 1), den)

/-- The exponent with which `num / den` has a mantissa of full precision. -/
def exponentFor (f : BinaryFormat) (num den : Nat) : Int :=
  let e : Int := (num.log2 : Int) - den.log2 - f.precision
  let (n, d) := scale num den e
  max (if n < d * Nat.pow 2 f.precision then e else e + 1) f.minExponent

/-- The number of the format nearest to `num / den`. A mantissa that rounds up to a power of two
moves to the next exponent. -/
def round (f : BinaryFormat) (num den : Nat) : BinaryNumber :=
  if num = 0 then .zero
  else
    let e := f.exponentFor num den
    let (n, d) := scale num den e
    let m := roundDiv n d
    if m < Nat.pow 2 f.precision then ⟨m, e⟩ else ⟨m / 2, e + 1⟩

def ofNat (f : BinaryFormat) (n : Nat) : BinaryNumber := f.round n 1

def add (f : BinaryFormat) (x y : BinaryNumber) : BinaryNumber :=
  let (a, b) := x.ratio
  let (c, d) := y.ratio
  f.round (a * d + c * b) (b * d)

def mul (f : BinaryFormat) (x y : BinaryNumber) : BinaryNumber :=
  let (a, b) := x.ratio
  let (c, d) := y.ratio
  f.round (a * c) (b * d)

def div (f : BinaryFormat) (x y : BinaryNumber) : BinaryNumber :=
  let (a, b) := x.ratio
  let (c, d) := y.ratio
  f.round (a * d) (b * c)

end BinaryFormat

namespace BinaryNumber

/-- The interchange encoding of a normal number of the single format, or of zero. -/
def singleBits (x : BinaryNumber) : Nat :=
  if x.mantissa = 0 then 0
  else (x.exponent + 150).toNat * 8388608 + (x.mantissa - 8388608)

end BinaryNumber

end TapeLang

import TapeLang.Config

/-! # Cells

A cell holds a number modulo a power of two. Cells of 32 bits read as signed numbers, the narrower
ones as unsigned numbers.
-/

namespace TapeLang

structure Cell (w : CellWidth) where
  val : Nat
  isLt : val < w.modulus
  deriving DecidableEq, Repr

namespace Cell

variable {w : CellWidth}

/-- The cell that keeps the low bits of `code`. -/
def ofCode (code : Nat) : Cell w where
  val := code % w.modulus
  isLt := Nat.mod_lt _ w.modulus_pos

/-- The cell whose number is congruent to `n`. -/
def ofInt : Int → Cell w
  | .ofNat n => ofCode n
  | .negSucc n => ofCode (w.modulus - 1 - n % w.modulus)

theorem ofInt_val (n : Int) : ((ofInt n : Cell w).val : Int) = n % w.modulus := by
  have hpos := w.modulus_pos
  cases n with
  | ofNat n => simp [ofInt, ofCode]
  | negSucc n =>
    have h := Nat.mod_lt n hpos
    have hlt : w.modulus - 1 - n % w.modulus < w.modulus := by omega
    simp only [ofInt, ofCode, Nat.mod_eq_of_lt hlt]
    rw [Int.negSucc_emod n (by omega : (0 : Int) < w.modulus)]
    omega

def zero : Cell w := ⟨0, w.modulus_pos⟩

instance : Inhabited (Cell w) := ⟨zero⟩

def isZero (c : Cell w) : Bool := c.val == 0

/-- Addition around the end of the range. -/
def add (c : Cell w) (delta : Int) : Cell w :=
  ofCode (c.val + (ofInt delta : Cell w).val)

theorem add_val (c : Cell w) (delta : Int) :
    ((c.add delta).val : Int) = (c.val + delta) % w.modulus := by
  simp [add, ofCode, ofInt_val, Int.add_emod]

/-- The number a cell stands for. -/
def toInt (c : Cell w) : Int :=
  match w with
  | .thirtyTwo => if c.val < 2147483648 then c.val else c.val - 4294967296
  | _ => c.val

/-- The character with the cell's code, or the replacement character if there is none. -/
def toChar (c : Cell w) : Char :=
  if c.val.isValidChar then Char.ofNat c.val else '\uFFFD'

/-- What reading a character leaves in a cell; the end of the input reads as zero. -/
def ofInput (input : Option Char) : Cell w :=
  match input with
  | some c => ofCode c.toNat
  | none => zero

end Cell

end TapeLang

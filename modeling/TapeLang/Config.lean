/-! # Configuration of the machine -/

namespace TapeLang

inductive CellWidth
  | eight
  | sixteen
  | thirtyTwo
  deriving DecidableEq, Repr

namespace CellWidth

def bits : CellWidth → Nat
  | .eight => 8
  | .sixteen => 16
  | .thirtyTwo => 32

/-- The number of values of the widest cell. -/
@[noinline] def widest : Nat := 4294967296

/-- The number of values of a cell. -/
def modulus : CellWidth → Nat
  | .eight => 256
  | .sixteen => 65536
  | .thirtyTwo => widest

theorem modulus_pos (w : CellWidth) : 0 < w.modulus := by
  cases w <;> decide

def bytes (w : CellWidth) : Nat := w.bits / 8

def text (w : CellWidth) : String := toString w.bits ++ "-bit"

end CellWidth

/-- What happens when the data pointer is moved off the tape: it comes back at the other end, or
the run ends with a fault. -/
inductive BoundsPolicy
  | wrap
  | fatal
  deriving DecidableEq, Repr

def BoundsPolicy.text : BoundsPolicy → String
  | .wrap => "wrap"
  | .fatal => "fatal"

/-- The number of cells of a tape unless asked otherwise. -/
def defaultTapeSize : Nat := 30000

structure Config where
  width : CellWidth := .eight
  tapeSize : Nat := defaultTapeSize
  bounds : BoundsPolicy := .wrap
  deriving DecidableEq, Repr

/-- A tape has at least one cell. -/
def Config.cellCount (config : Config) : Nat := max config.tapeSize 1

/-- The most bytes that a row of cells can take. -/
def maxRowBytes : Nat := 9223372036854775807

/-- Whether a row of cells can be held in memory. -/
def CellWidth.canHold (w : CellWidth) (cells : Nat) : Bool := cells * w.bytes ≤ maxRowBytes

end TapeLang

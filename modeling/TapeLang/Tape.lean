import TapeLang.Cell
import TapeLang.Fault
import TapeLang.Instruction

/-! # The tape

A row of cells. Moves and scans start from a pointer, which need not stand on the tape: what cannot
be answered is a trap.
-/

namespace TapeLang

structure Tape (w : CellWidth) where
  cells : Array (Cell w)
  deriving DecidableEq, Repr

/-- Why a pointer could not be moved. -/
inductive Trap
  | fault (fault : BoundsFault)
  | defect (defect : Defect)
  deriving DecidableEq, Repr

namespace Tape

variable {w : CellWidth}

/-- A tape of zeros. It has at least one cell. -/
def blank (size : Nat) : Tape w := ⟨Array.replicate (max size 1) Cell.zero⟩

/-- A blank tape, if memory can hold it. -/
def allocate (size : Nat) : Except Defect (Tape w) :=
  if w.canHold (max size 1) then .ok (blank size) else .error .capacityOverflow

def size (t : Tape w) : Nat := t.cells.size

def get? (t : Tape w) (i : Nat) : Option (Cell w) := t.cells[i]?

/-- The tape with cell `i` replaced; a cell that is not there stays away. -/
def set (t : Tape w) (i : Nat) (c : Cell w) : Tape w := ⟨t.cells.setIfInBounds i c⟩

/-- Read a cell that should be there. -/
def fetch (t : Tape w) (i : Nat) : Except Defect (Cell w) :=
  match t.get? i with
  | some c => .ok c
  | none => .error (.indexOutOfBounds t.size i)

/-- Write a cell that should be there. -/
def store (t : Tape w) (i : Nat) (c : Cell w) : Except Defect (Tape w) :=
  if i < t.size then .ok (t.set i c) else .error (.indexOutOfBounds t.size i)

/-- Write numbers into the cells from `i` on. -/
def load (t : Tape w) (i : Nat) : List Nat → Except Defect (Tape w)
  | [] => .ok t
  | code :: rest =>
    match t.store i (.ofCode code) with
    | .ok t => t.load (i + 1) rest
    | .error defect => .error defect

/-- The same number of cells, all zero. -/
def zeroed (t : Tape w) : Tape w := ⟨Array.replicate t.cells.size Cell.zero⟩

/-- How many of the first `n` cells there are up to the last that is not zero. -/
def usedBelow (t : Tape w) : Nat → Nat
  | 0 => 0
  | n + 1 =>
    if h : n < t.cells.size then
      if t.cells[n].isZero then t.usedBelow n else n + 1
    else t.usedBelow n

/-- The cells' numbers without the zeros at the end. -/
def trimmed (t : Tape w) : List Nat :=
  (t.cells.extract 0 (t.usedBelow t.size)).toList.map Cell.val

/-- Where the pointer lands after moving by `delta` cells. -/
def offset (t : Tape w) (pointer : Nat) (delta : Int) (bounds : BoundsPolicy) :
    Except BoundsFault Nat :=
  let target : Int := pointer + delta
  match bounds with
  | .wrap => .ok (target % t.size).toNat
  | .fatal =>
    if target < 0 then .error .underflow
    else if target < t.size then .ok target.toNat
    else .error .overflow

/-- Look at `count` cells rightward from `i` for a zero. -/
def searchRight (t : Tape w) (i : Nat) : Nat → Except Defect (Option Nat)
  | 0 => .ok none
  | count + 1 =>
    match t.get? i with
    | none => .error (.indexOutOfBounds t.size i)
    | some c => if c.isZero then .ok (some i) else t.searchRight (i + 1) count

/-- Look at `count` cells leftward from `i` for a zero. -/
def searchLeft (t : Tape w) (i : Nat) : Nat → Except Defect (Option Nat)
  | 0 => .ok none
  | count + 1 =>
    match t.get? i with
    | none => .error (.indexOutOfBounds t.size i)
    | some c => if c.isZero then .ok (some i) else t.searchLeft (i - 1) count

/-- Look from the pointer to the end of the tape. -/
def searchNear (t : Tape w) (pointer : Nat) : Direction → Except Defect (Option Nat)
  | .right => t.searchRight pointer (t.size - pointer)
  | .left => t.searchLeft pointer (pointer + 1)

/-- Look from the other end of the tape back to the pointer. -/
def searchFar (t : Tape w) (pointer : Nat) : Direction → Except Defect (Option Nat)
  | .right => t.searchRight 0 pointer
  | .left => t.searchLeft (t.size - 1) (t.size - (pointer + 1))

/-- The nearest zero cell from the pointer on, the pointer's own cell included. -/
def scan (t : Tape w) (pointer : Nat) (direction : Direction) (bounds : BoundsPolicy) :
    Except Trap Nat :=
  match t.searchNear pointer direction with
  | .error d => .error (.defect d)
  | .ok (some i) => .ok i
  | .ok none =>
    match bounds, direction with
    | .fatal, .right => .error (.fault .overflow)
    | .fatal, .left => .error (.fault .underflow)
    | .wrap, direction =>
      match t.searchFar pointer direction with
      | .error d => .error (.defect d)
      | .ok (some i) => .ok i
      | .ok none => .error (.fault .noZeroCell)

end Tape

end TapeLang

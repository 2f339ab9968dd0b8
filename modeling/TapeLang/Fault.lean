/-! # Faults and defects

A fault ends a run: the data pointer left the tape, or a scan found no zero cell. A defect is a
broken internal check; it ends whatever ran into it.
-/

namespace TapeLang

inductive BoundsFault
  | underflow
  | overflow
  | noZeroCell
  deriving DecidableEq, Repr

/-- A fault with the instruction that met it and the data pointer before that instruction. -/
structure BoundsError where
  fault : BoundsFault
  instruction : Nat
  pointer : Nat
  tapeSize : Nat
  deriving DecidableEq, Repr

inductive Defect
  | indexOutOfBounds (size index : Nat)
  | unpairedLoop
  | subtractionOverflow
  | durationProductOverflow
  | durationSumOverflow
  | durationOverflow
  | brokenConsole
  | capacityOverflow
  | instantOverflow
  deriving DecidableEq, Repr

def Defect.message : Defect → String
  | .indexOutOfBounds size index =>
    "index out of bounds: the len is " ++ toString size ++ " but the index is " ++ toString index
  | .unpairedLoop => "assertion failed: the loop is not paired"
  | .subtractionOverflow => "attempt to subtract with overflow"
  | .durationProductOverflow => "overflow when multiplying duration by scalar"
  | .durationSumOverflow => "overflow when adding durations"
  | .durationOverflow => "overflow in Duration::new"
  | .brokenConsole => "the console broke"
  | .capacityOverflow => "capacity overflow"
  | .instantOverflow => "overflow when adding duration to instant"

namespace BoundsError

def message (e : BoundsError) : String :=
  let start := "Bounds error: instruction #" ++ toString e.instruction
  match e.fault with
  | .underflow =>
    start ++ " moved the data pointer from cell " ++ toString e.pointer ++ " below cell 0"
  | .overflow =>
    start ++ " moved the data pointer from cell " ++ toString e.pointer ++
      " past the last cell (" ++ toString (e.tapeSize - 1) ++ ")"
  | .noZeroCell =>
    start ++ " scanned from cell " ++ toString e.pointer ++
      " for a zero cell, but none of the " ++ toString e.tapeSize ++ " cells is zero"

/-- The text of an error. The last cell of an empty tape has no number. -/
def render (e : BoundsError) : Except Defect String :=
  if e.fault = .overflow ∧ e.tapeSize = 0 then .error .subtractionOverflow else .ok e.message

end BoundsError

end TapeLang

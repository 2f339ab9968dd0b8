/-! # Instructions

What a program consists of: operations that act on the tape or the console and then fall through,
and the two ends of a loop, each of which knows where its partner stands.
-/

namespace TapeLang

inductive Direction
  | left
  | right
  deriving DecidableEq, Repr

/-- An operation without control flow. -/
inductive Op
  | move (offset : Int)
  | add (delta : Int)
  | input
  | output
  | clear
  | scan (direction : Direction)
  | breakpoint
  deriving DecidableEq, Repr

/-- `loopStart` jumps behind `stop` on a zero cell, `loopEnd` jumps behind `start` on a nonzero
one. -/
inductive Instruction
  | op (op : Op)
  | loopStart (stop : Nat)
  | loopEnd (start : Nat)
  deriving DecidableEq, Repr

/-- Decimal digits behind an explicit sign. -/
def signed : Int → String
  | .ofNat n => "+" ++ toString n
  | .negSucc n => "-" ++ toString (n + 1)

/-- Decimal digits with a sign only for negative numbers. -/
def decimal : Int → String
  | .ofNat n => toString n
  | .negSucc n => "-" ++ toString (n + 1)

def Op.text : Op → String
  | .move offset => "address " ++ signed offset
  | .add delta => "data " ++ signed delta
  | .input => "input"
  | .output => "output"
  | .clear => "set-zero"
  | .scan .left => "scan-zero-left"
  | .scan .right => "scan-zero-right"
  | .breakpoint => "breakpoint"

def Instruction.text : Instruction → String
  | .op o => o.text
  | .loopStart stop => "loop-start -> " ++ toString stop
  | .loopEnd start => "loop-end -> " ++ toString start

/-- The first word of an instruction's text. -/
def Instruction.kind : Instruction → String
  | .op (.move _) => "address"
  | .op (.add _) => "data"
  | .op o => o.text
  | .loopStart _ => "loop-start"
  | .loopEnd _ => "loop-end"

end TapeLang

import TapeLang.Lexeme

/-! # Loop trees

A program as a sequence of operations and loops. `Block.ofLexemes` pairs the brackets of a list of
lexemes, and `Block.emit` lays a block out as flat code with jumps.
-/

namespace TapeLang

inductive Block
  | nil
  | op (op : Op) (rest : Block)
  | loop (body rest : Block)
  deriving DecidableEq, Repr

/-- A bracket without partner. Of several open loops the outermost is reported. -/
inductive CompileError
  | unmatchedOpen (position : Nat)
  | unmatchedClose (position : Nat)
  deriving DecidableEq, Repr

namespace CompileError

def position : CompileError → Nat
  | .unmatchedOpen p => p
  | .unmatchedClose p => p

def bracket : CompileError → Char
  | .unmatchedOpen _ => '['
  | .unmatchedClose _ => ']'

def message : CompileError → String
  | .unmatchedOpen p => "unmatched '[' at position " ++ toString p ++ ": the loop is never closed"
  | .unmatchedClose p => "unmatched ']' at position " ++ toString p ++ ": no loop is open"

end CompileError

namespace Block

/-- The items of a block in reverse order, in front of `tail`. -/
def reverseOnto : Block → Block → Block
  | .nil, tail => tail
  | .op o rest, tail => rest.reverseOnto (.op o tail)
  | .loop body rest, tail => rest.reverseOnto (.loop body tail)

/-- A loop whose end has not been seen: where it opened, and what stands before it in reverse. -/
structure Frame where
  position : Nat
  before : Block

/-- Read on with `current`, in reverse, as the innermost block and `frames` open around it. -/
def parse : List Lexeme → Block → List Frame → Except CompileError Block
  | [], current, frames =>
    match frames.getLast? with
    | none => .ok (current.reverseOnto .nil)
    | some frame => .error (.unmatchedOpen frame.position)
  | .op o :: rest, current, frames => parse rest (.op o current) frames
  | .enter p :: rest, current, frames => parse rest .nil (⟨p, current⟩ :: frames)
  | .leave p :: _, _, [] => .error (.unmatchedClose p)
  | .leave _ :: rest, current, frame :: frames =>
    parse rest (.loop (current.reverseOnto .nil) frame.before) frames

def ofLexemes (xs : List Lexeme) : Except CompileError Block :=
  parse xs .nil []

/-- What the start of a loop holds until the end is known: the largest number of 64 bits. -/
def unknownTarget : Nat := 18446744073709551615

/-- Append the code of a block to `code`. The start of a loop is set once its end is known. -/
def emit : Block → Array Instruction → Array Instruction
  | .nil, code => code
  | .op o rest, code => rest.emit (code.push (.op o))
  | .loop body rest, code =>
    let start := code.size
    let inner := body.emit (code.push (.loopStart unknownTarget))
    rest.emit ((inner.setIfInBounds start (.loopStart inner.size)).push (.loopEnd start))

end Block

end TapeLang

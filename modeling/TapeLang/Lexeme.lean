import TapeLang.Instruction

/-! # Lexemes

The nine command characters of a text, each with what it does alone; every other character is a
comment. Two peephole passes work on the list of lexemes, before the brackets are paired: folding
replaces the loops `[-]`, `[<]` and `[>]` by one operation, and coalescing replaces a run of moves
or additions by its net effect.
-/

namespace TapeLang

/-- Brackets remember their position in the text, counted in characters from 1. -/
inductive Lexeme
  | op (op : Op)
  | enter (position : Nat)
  | leave (position : Nat)
  deriving DecidableEq, Repr

/-- The character that marks a breakpoint. -/
def breakpointMark : Char := '#'

namespace Lexeme

def ofChar? (c : Char) (position : Nat) : Option Lexeme :=
  match c with
  | '>' => some (.op (.move 1))
  | '<' => some (.op (.move (-1)))
  | '+' => some (.op (.add 1))
  | '-' => some (.op (.add (-1)))
  | '.' => some (.op .output)
  | ',' => some (.op .input)
  | '[' => some (.enter position)
  | ']' => some (.leave position)
  | c => if c = breakpointMark then some (.op .breakpoint) else none

end Lexeme

/-- The commands of a text in order. -/
def lex (source : String) : List Lexeme :=
  (source.toList.zipIdx 1).filterMap fun (c, position) => Lexeme.ofChar? c position

/-- What a loop over `o` alone amounts to: it ends on the first zero cell it meets. -/
def Op.loopIdiom? : Op → Option Op
  | .add (-1) => some .clear
  | .move (-1) => some (.scan .left)
  | .move 1 => some (.scan .right)
  | _ => none

namespace Lexeme

/-- Put `x` before `rest`, folding the loop that `x` opens if it has an idiom. -/
def consFolding (x : Lexeme) (rest : List Lexeme) : List Lexeme :=
  match x, rest with
  | .enter p, .op o :: .leave q :: tail =>
    match o.loopIdiom? with
    | some idiom => .op idiom :: tail
    | none => .enter p :: .op o :: .leave q :: tail
  | x, rest => x :: rest

def foldIdioms (xs : List Lexeme) : List Lexeme :=
  xs.foldr consFolding []

/-- The representative of `n` modulo 2^32 between -2^31 and 2^31 - 1. -/
def wrapDelta (n : Int) : Int := n.bmod 4294967296

/-- Close the run at the head of a list: a run without net effect disappears. -/
def closeRun : List Lexeme → List Lexeme
  | .op (.move n) :: rest => if n = 0 then rest else .op (.move n) :: rest
  | .op (.add n) :: rest => if n = 0 then rest else .op (.add (wrapDelta n)) :: rest
  | rest => rest

/-- Put `x` before `rest`, whose head may be a run still open. An addition directly before an
input is dead: the input overwrites the cell. -/
def consCoalescing (x : Lexeme) (rest : List Lexeme) : List Lexeme :=
  match x, rest with
  | .op (.move m), .op (.move n) :: tail => .op (.move (m + n)) :: tail
  | .op (.add m), .op (.add n) :: tail => .op (.add (m + n)) :: tail
  | .op (.add _), .op .input :: tail => .op .input :: tail
  | x, rest => x :: closeRun rest

def coalesce (xs : List Lexeme) : List Lexeme :=
  closeRun (xs.foldr consCoalescing [])

end Lexeme

end TapeLang

import TapeLang.Block

/-! # Programs

Flat code in which every loop end knows its partner, and its listing.
-/

namespace TapeLang

structure Program where
  code : Array Instruction
  deriving DecidableEq, Repr

namespace Program

def ofBlock (b : Block) : Program := ⟨b.emit #[]⟩

def size (p : Program) : Nat := p.code.size

def get? (p : Program) (i : Nat) : Option Instruction := p.code[i]?

def loopCount (p : Program) : Nat :=
  p.code.foldl (fun n i => match i with | .loopStart _ => n + 1 | _ => n) 0

end Program

namespace Instruction

/-- The nesting depth at which an instruction is shown, the depth before it being `depth`. -/
def depthAt (i : Instruction) (depth : Nat) : Nat :=
  match i with
  | .loopEnd _ => depth - 1
  | _ => depth

/-- The nesting depth after an instruction shown at `depth`. -/
def depthAfter (i : Instruction) (depth : Nat) : Nat :=
  match i with
  | .loopStart _ => depth + 1
  | _ => depth

end Instruction

/-- `text` with blanks before it up to `width` characters. -/
def alignRight (width : Nat) (text : String) : String :=
  String.ofList (List.replicate (width - text.length) ' ') ++ text

/-- `text` written `n` times. -/
def repeatText (text : String) (n : Nat) : String :=
  if text.isEmpty then "" else String.join (List.replicate n text)

namespace Program

/-- The line of an instruction: its index, two blanks per loop open around it, its text. -/
def listingLine (index depth : Nat) (i : Instruction) : String :=
  alignRight 6 (toString index) ++ "  " ++ repeatText "  " depth ++ i.text ++ "\n"

def listingFrom : List Instruction → Nat → Nat → String → String
  | [], _, _, acc => acc
  | i :: rest, index, depth, acc =>
    let shown := i.depthAt depth
    listingFrom rest (index + 1) (i.depthAfter shown) (acc ++ listingLine index shown i)

def listing (p : Program) : String :=
  listingFrom p.code.toList 0 0 ""

end Program

end TapeLang

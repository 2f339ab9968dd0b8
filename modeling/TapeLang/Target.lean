import TapeLang.Config
import TapeLang.Program

/-! # Target languages

A target writes a program in another language: what comes before the first instruction, what comes
after the last, and a fragment of code for each instruction. A fragment may have several lines; the
generator indents each of them, and drops the empty ones.
-/

namespace TapeLang

structure Target where
  name : String
  /-- The usual ending of file names, without the dot. -/
  extension : String
  indentation : String := "    "
  opening : Config → String
  closing : Config → String
  fragment : Instruction → Config → String

/-- Lines of text, each closed by a newline. -/
def linesOf (lines : List String) : String :=
  String.join (lines.map (· ++ "\n"))

/-- The representative of `delta` among the numbers of an unsigned cell. -/
def unsignedDelta (delta : Int) (width : CellWidth) : Nat :=
  (delta % width.modulus).toNat

/-- A target given by fixed opening and closing texts and one fragment per kind of instruction. In a
fragment the pair of braces stands for the instruction's text. An instruction whose kind has no
fragment is written as its text. -/
structure TargetTexts where
  opening : String := ""
  closing : String := ""
  indentation : String := "    "
  /-- Fragments by kind of instruction. -/
  fragments : List (String × String) := []

def Target.custom (texts : TargetTexts) : Target where
  name := "Custom"
  extension := "txt"
  indentation := texts.indentation
  opening _ := texts.opening
  closing _ := texts.closing
  fragment i _ :=
    match texts.fragments.lookup i.kind with
    | some fragment => fragment.replace "\x7b\x7d" i.text
    | none => i.text

end TapeLang

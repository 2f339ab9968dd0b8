import TapeLang.Program

/-! # Compilation

From text to program: lexemes, the chosen passes, the loop tree, flat code.
-/

namespace TapeLang

/-- Which peephole passes are applied. -/
structure Passes where
  foldIdioms : Bool
  coalesce : Bool
  deriving DecidableEq, Repr

namespace Passes

def all : Passes := ⟨true, true⟩

def none : Passes := ⟨false, false⟩

def apply (passes : Passes) (xs : List Lexeme) : List Lexeme :=
  let folded := if passes.foldIdioms then Lexeme.foldIdioms xs else xs
  if passes.coalesce then Lexeme.coalesce folded else folded

end Passes

def compile (passes : Passes) (source : String) : Except CompileError Program :=
  (Block.ofLexemes (passes.apply (lex source))).map Program.ofBlock

/-- The loops that folding replaces, with their positions, in the order of the text. -/
def idiomsIn : List Lexeme → List (Nat × Op) → List (Nat × Op)
  | .enter p :: rest, found =>
    match rest with
    | .op o :: .leave _ :: _ =>
      match o.loopIdiom? with
      | some idiom => idiomsIn rest ((p, idiom) :: found)
      | none => idiomsIn rest found
    | _ => idiomsIn rest found
  | _ :: rest, found => idiomsIn rest found
  | [], found => found.reverse

/-- The part of a text that compilation looks at: it stops at a bracket that closes nothing. -/
def lexemesRead (xs : List Lexeme) (error : Option CompileError) : List Lexeme :=
  match error with
  | some (.unmatchedClose p) => xs.takeWhile (· != .leave p)
  | _ => xs

end TapeLang

import TapeLang.Block
import TapeLang.Text.Basic
import TapeLang.Text.Width

/-! # Diagnostics

A compile error shown on its source line, with a caret under the bracket.
-/

namespace TapeLang

structure Diagnostic where
  title : String
  path : String
  /-- The bytes of the bracket in the source go from `start` up to `stop`. -/
  start : Nat
  stop : Nat
  /-- Line and column count from 1, the column in characters. -/
  line : Nat
  column : Nat
  /-- The source line as shown. -/
  source : String
  /-- How many display columns stand before the caret. -/
  indent : Nat
  label : String
  deriving DecidableEq, Repr

namespace Diagnostic

/-- How far apart tab stops are. -/
def tabStop : Nat := 4

def blanks (n : Nat) : String := String.ofList (List.replicate n ' ')

/-- Characters as shown from display column `column` on, with tabs as blanks, and the column after
the last. What is shown comes in reverse before `shown`. -/
def layOut : List Char → Nat → List Char → List Char × Nat
  | [], column, shown => (shown, column)
  | '\t' :: rest, column, shown =>
    let n := tabStop - column % tabStop
    layOut rest (column + n) (List.replicate n ' ' ++ shown)
  | c :: rest, column, shown => layOut rest (column + displayWidth c) (c :: shown)

def isLineEnding (c : Char) : Bool := c = '\n' || c = '\r' || c = '\x00'

def ofCompileError (path source : String) (e : CompileError) : Diagnostic :=
  let chars := source.toList
  let before := chars.take (e.position - 1)
  let onLine := (before.reverse.takeWhile (· != '\n')).reverse
  let rest := (chars.drop (e.position - 1)).takeWhile (· != '\n')
  let start := (String.ofList before).utf8ByteSize
  { title := "unmatched '" ++ String.singleton e.bracket ++ "'"
    path
    start
    stop := start + e.bracket.utf8Size
    line := before.count '\n' + 1
    column := onLine.length + 1
    source := String.ofList (layOut (dropEndWhile isLineEnding (onLine ++ rest)) 0 []).1.reverse
    indent := (layOut onLine 0 []).2
    label := match e with
      | .unmatchedOpen _ => "this loop is never closed"
      | .unmatchedClose _ => "no loop is open here" }

/-- The text of a diagnostic, with an empty line at its end. A bracket takes as many columns as
bytes. -/
def render (d : Diagnostic) : String :=
  let number := toString d.line
  let gutter := blanks number.length
  let carets := String.ofList (List.replicate (d.stop - d.start) '^')
  "error: " ++ d.title ++ "\n" ++
    gutter ++ " ┌─ " ++ d.path ++ ":" ++ number ++ ":" ++ toString d.column ++ "\n" ++
    gutter ++ " │\n" ++
    number ++ " │ " ++ d.source ++ "\n" ++
    gutter ++ " │ " ++ blanks d.indent ++ carets ++ " " ++ d.label ++ "\n\n"

end Diagnostic

end TapeLang

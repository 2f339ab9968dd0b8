import TapeLang.Console
import TapeLang.Console.Input

/-! # The console over standard streams

Program output goes to one stream; messages, errors and notes go to the other, errors in red. The
input is what the lines of standard input hold.
-/

namespace TapeLang

/-- How a note is shown on the error stream. -/
def Note.line (n : Note) : String :=
  let level := n.level.name
  let pad := String.ofList (List.replicate (5 - level.length) ' ')
  "[" ++ level ++ pad ++ " " ++ n.origin.name ++ "] " ++ n.text ++ "\n"

/-- How an error report is shown on the error stream. -/
def errorLine (text : String) : String := "\x1b[31m" ++ text ++ "\x1b[0m\n"

structure Streams where
  input : InputQueue := {}
  out : String := ""
  err : String := ""
  /-- Notes above this level are not shown. -/
  level : Level := .off
  /-- Whether the output stream takes anything. -/
  writable : Bool := true

namespace Streams

def addNote (n : Note) (s : Streams) : Streams :=
  if n.level.rank ≤ s.level.rank then { s with err := s.err ++ n.line } else s

def message (text : String) (s : Streams) : Streams := { s with err := s.err ++ text ++ "\n" }

def error (text : String) (s : Streams) : Streams := { s with err := s.err ++ errorLine text }

/-- Program output. A refused write is noted and lost. -/
def write (text : String) : Streams → Streams
  | ⟨input, out, err, level, true⟩ => ⟨input, out ++ text, err, level, true⟩
  | ⟨input, out, err, level, false⟩ => addNote .outputRefused ⟨input, out, err, level, false⟩

def release (s : Streams) : Streams := { s with input := s.input.release }

/-- Standard input cannot be opened again: what is left of it, and its end, carry over. -/
def reset (s : Streams) : Streams := { s with input := s.input.restart }

def read? (s : Streams) : Option (Option Char × Streams) :=
  s.input.read?.map fun (c, input) => (c, { s with input })

instance : Console Streams where
  put c s := (true, s.write (String.singleton c))
  get? := read?
  message := message
  error := error
  note := addNote
  release := release
  reset := reset

end Streams

end TapeLang

import TapeLang.CommandLine.Source
import TapeLang.Console.Buffered
import TapeLang.Console.Streams
import TapeLang.Debugger.Calls
import TapeLang.Text.Basic

/-! # The debugger's prompt

Each line of standard input is a command to the debugger. After a command the run gets a moment to
settle; then its output is shown, and its position if it is paused.
-/

namespace TapeLang.CommandLine

inductive Order
  | nothing
  | step
  | resume
  | pause
  | breakpoints (enabled : Bool)
  | tape
  | position
  | input (text : String)
  | endOfInput
  | quit
  | unknown
  deriving DecidableEq, Repr

/-- The word before the first space of a line, and what follows that space. -/
def splitWord (line : String) : String × String :=
  let chars := (trimBlanks line).toList
  (String.ofList (chars.takeWhile (· != ' ')),
    String.ofList ((chars.dropWhile (· != ' ')).drop 1))

def Order.ofLine (line : String) : Order :=
  let (word, rest) := splitWord line
  match word with
  | "" => .nothing
  | "s" | "step" => .step
  | "c" | "continue" => .resume
  | "p" | "pause" => .pause
  | "b" | "breakpoints" => .breakpoints (trimBlanks rest != "off")
  | "t" | "tape" => .tape
  | "w" | "where" => .position
  | "i" | "input" => .input rest
  | "e" | "eof" => .endOfInput
  | "q" | "quit" => .quit
  | _ => .unknown

def promptHelp : String :=
  "commands:\n" ++
  "  s             step one instruction\n" ++
  "  c             continue\n" ++
  "  p             pause\n" ++
  "  b on|off      enable or disable breakpoints\n" ++
  "  t             show the tape around the data pointer\n" ++
  "  w             show the current instruction\n" ++
  "  i TEXT        give a line of input to the program\n" ++
  "  e             end the program's input\n" ++
  "  q             quit\n"

/-- The cells around the data pointer, one a line. -/
def tapeWindow {w : CellWidth} (tape : Tape w) (pointer : Nat) : String :=
  let start := pointer - 8
  let cells := (tape.cells.extract start (pointer + 9)).toList
  String.join <| cells.zipIdx.map fun (cell, k) =>
    let i := start + k
    let marker := if i = pointer then ">" else " "
    marker ++ " [" ++ alignRight 5 (toString i) ++ "] " ++ toString cell.val ++ "\n"

structure Prompt (config : DebugConfig) where
  debugger : Debugger config Buffered
  streams : Streams

namespace Prompt

variable {config : DebugConfig}

/-- How long a command waits for the run. -/
def patience : Duration := .ofMillis 100

/-- How many moves a run can make meanwhile. -/
def pace : Nat := 1000000

def print (text : String) (p : Prompt config) : Prompt config :=
  { p with streams := { p.streams with out := p.streams.out ++ text } }

def complain (text : String) (p : Prompt config) : Prompt config :=
  { p with streams := { p.streams with err := p.streams.err ++ text } }

/-- Show the notes made since the last time. -/
def showNotes (p : Prompt config) : Prompt config :=
  let console := p.debugger.console
  { debugger := { p.debugger with console := { console with notes := [] } }
    streams := Console.noteAll console.journal p.streams }

def showSegment (streams : Streams) (segment : Segment) : Streams :=
  match segment.tag with
  | .output => { streams with out := streams.out ++ segment.text }
  | .message => streams.message segment.text
  | .error => streams.error segment.text

/-- Show everything written since the last time. -/
def showOutput (p : Prompt config) : Prompt config :=
  let p := p.showNotes
  let (segments, console) := p.debugger.console.drain
  { debugger := { p.debugger with console }
    streams := segments.foldl showSegment p.streams }

def positionLine (d : Debugger config Buffered) : String :=
  let next := match d.currentInstruction? with
    | some i => i.text
    | none => "(end of program)"
  d.control.state.name ++ " at #" ++ toString d.control.index ++ ": " ++ next ++
    ", data pointer " ++ toString d.control.pointer ++ "\n"

def showPosition (p : Prompt config) : Prompt config := p.print (positionLine p.debugger)

/-- Make a call and say so if it is refused. -/
def call (f : Debugger config Buffered → Reply × Debugger config Buffered) (p : Prompt config) :
    Prompt config :=
  let (reply, debugger) := f p.debugger
  let p := { p with debugger }.showNotes
  match reply with
  | .refused e => p.complain (e.message ++ "\n")
  | _ => p

def withConsole (f : Buffered → Buffered) (p : Prompt config) : Prompt config :=
  { p with debugger := { p.debugger with console := f p.debugger.console } }

def carryOut (order : Order) (p : Prompt config) : Prompt config :=
  match order with
  | .nothing | .quit => p
  | .step => p.call Debugger.step
  | .resume => p.call Debugger.resume
  | .pause => p.call Debugger.pause
  | .breakpoints enabled => { p with debugger := p.debugger.setBreakpoints enabled }
  | .tape => p.print (tapeWindow p.debugger.control.tape p.debugger.control.pointer)
  | .position => p.showPosition
  | .input text => p.withConsole (Buffered.push (text ++ "\n"))
  | .endOfInput => p.withConsole Buffered.close
  | .unknown => p.complain promptHelp

/-- Obey a line; `false` if the prompt is over. -/
def obey (line : String) (p : Prompt config) : Bool × Prompt config :=
  match Order.ofLine line with
  | .quit => (false, p)
  | order =>
    let p := p.carryOut order
    let p := { p with debugger := p.debugger.wait patience pace }.showOutput
    (true, if p.debugger.control.state = .paused then p.showPosition else p)

/-- Start a program, with what the clock shows, and greet with the list of commands. -/
def start (config : DebugConfig) (clock : Nat) (source : String) (streams : Streams) :
    Except Failure (Prompt config) × Streams :=
  match (Debugger.allocate clock {} : Except Defect (Debugger config Buffered)) with
  | .error _ => (.error .crashed, streams)
  | .ok debugger =>
    let (reply, debugger) := debugger.start source
    let p := showNotes ⟨debugger, streams⟩
    match reply with
    | .ok =>
      let p := p.complain promptHelp
      (.ok p, p.streams)
    | .refused e => (.error (.control e), p.streams)
    | _ => (.error .crashed, p.streams)

/-- Stop the run and show what it left. -/
def finish (p : Prompt config) : Streams :=
  showOutput { p with debugger := p.debugger.stop.2 } |>.streams

/-- Leave without showing what was written. -/
def abandon (p : Prompt config) : Streams :=
  showNotes { p with debugger := p.debugger.close } |>.streams

/-- Obey the lines of standard input. -/
def obeyAll : List ByteArray → Prompt config → Except Failure Unit × Streams
  | [], p => (.ok (), p.finish)
  | line :: rest, p =>
    match decodeText? line with
    | none => (.error (.system .notText), p.abandon)
    | some line =>
      match p.obey (chompLine line) with
      | (true, p) => obeyAll rest p
      | (false, p) => (.ok (), p.finish)

end Prompt

end TapeLang.CommandLine

import TapeLang.Compile
import TapeLang.Config
import TapeLang.Report

/-! # The journal

What the engine notes about its own work. A note keeps the facts; its text is made when shown.
-/

namespace TapeLang

inductive Level
  | off
  | error
  | warn
  | info
  | debug
  | trace
  deriving DecidableEq, Repr

namespace Level

def rank : Level → Nat
  | .off => 0
  | .error => 1
  | .warn => 2
  | .info => 3
  | .debug => 4
  | .trace => 5

def name : Level → String
  | .off => "OFF"
  | .error => "ERROR"
  | .warn => "WARN"
  | .info => "INFO"
  | .debug => "DEBUG"
  | .trace => "TRACE"

end Level

/-- The part of the engine that a note comes from. -/
inductive Origin
  | compiler
  | interpreter
  | session
  | debugger
  | generator
  | streams
  | commandLine
  deriving DecidableEq, Repr

def Origin.name : Origin → String
  | .compiler => "bfvm::ir::compile"
  | .interpreter => "bfvm::vm::interpreter"
  | .session => "bfvm::vm::session"
  | .debugger => "bfvm::vm::debugger"
  | .generator => "bfvm::targets"
  | .streams => "bfvm::side_effects::standard"
  | .commandLine => "bfvm"

inductive Note
  | folded (position : Nat) (idiom : Op)
  | compiled (commands instructions : Nat)
  | running (instructions : Nat) (config : Config)
  | runFault (error : BoundsError)
  | sessionStarted (width : CellWidth)
  | sessionStopped
  | sessionCrashed
  | debugStarted (width : CellWidth) (instructions : Nat)
  | breakpointHit (index : Nat)
  | executed (index next pointer : Nat)
  | debugFault (error : BoundsError)
  | debugEnded (report : Report)
  | debugStopped
  | debugCrashed
  | generating (instructions : Nat) (target : String) (width : CellWidth)
  | generated (done total : Nat)
  | generationCancelled (done : Nat)
  | outputRefused
  | inputUnreadable
  | inputEnded
  | percentGenerated (percent : Nat)
  | wroteFile (path : String)
  deriving DecidableEq, Repr

namespace Note

def level : Note → Level
  | .folded .. | .executed .. => .trace
  | .compiled .. | .running .. | .generated .. | .inputEnded => .debug
  | .runFault _ | .sessionCrashed | .debugFault _ | .debugCrashed | .outputRefused
  | .inputUnreadable => .warn
  | .sessionStarted _ | .sessionStopped | .debugStarted .. | .breakpointHit _ | .debugEnded _
  | .debugStopped | .generating .. | .generationCancelled _ | .percentGenerated _
  | .wroteFile _ => .info

def origin : Note → Origin
  | .folded .. | .compiled .. => .compiler
  | .running .. | .runFault _ => .interpreter
  | .sessionStarted _ | .sessionStopped | .sessionCrashed => .session
  | .debugStarted .. | .breakpointHit _ | .executed .. | .debugFault _ | .debugEnded _
  | .debugStopped | .debugCrashed => .debugger
  | .generating .. | .generated .. | .generationCancelled _ => .generator
  | .outputRefused | .inputUnreadable | .inputEnded => .streams
  | .percentGenerated _ | .wroteFile _ => .commandLine

def text : Note → String
  | .folded position idiom =>
    "Folded loop at position " ++ toString position ++ " into " ++ idiom.text
  | .compiled commands instructions =>
    "Compiled " ++ toString commands ++ " commands into " ++ toString instructions ++
      " instructions"
  | .running instructions config =>
    "Running " ++ toString instructions ++ " instructions with " ++ config.width.text ++
      " cells, " ++ config.bounds.text ++ " tape of " ++ toString config.tapeSize ++ " cells"
  | .runFault error => error.message
  | .sessionStarted width => "Starting a " ++ width.text ++ " session"
  | .sessionStopped => "Session stopped"
  | .sessionCrashed => "The interpreter thread panicked"
  | .debugStarted width instructions =>
    "Starting a " ++ width.text ++ " debug session over " ++ toString instructions ++
      " instructions"
  | .breakpointHit index => "Hit a breakpoint at instruction #" ++ toString index
  | .executed index next pointer =>
    "Executed #" ++ toString index ++ ", now at instruction #" ++ toString next ++
      " with pointer " ++ toString pointer
  | .debugFault error => error.message
  | .debugEnded report => "Debug run ended: " ++ report.line
  | .debugStopped => "Debug session stopped"
  | .debugCrashed => "The debugger thread panicked"
  | .generating instructions target width =>
    "Translating " ++ toString instructions ++ " instructions to " ++ target ++ " with " ++
      width.text ++ " cells"
  | .generated done total =>
    "Translated " ++ toString done ++ " of " ++ toString total ++ " instructions"
  | .generationCancelled done =>
    "Translation cancelled after " ++ toString done ++ " instructions"
  | .outputRefused => "Could not write program output to stdout"
  | .inputUnreadable => "Could not read from stdin: stream did not contain valid UTF-8"
  | .inputEnded => "Reached the end of stdin"
  | .percentGenerated percent => toString percent ++ "% translated"
  | .wroteFile path => "Wrote " ++ path

end Note

/-- What compiling a text leaves in the journal: the loops folded before an error, if any, and the
sizes at the end. -/
def compileNotes (passes : Passes) (source : String) (result : Except CompileError Program) :
    List Note :=
  let xs := lex source
  let folded error :=
    if passes.foldIdioms then
      (idiomsIn (lexemesRead xs error) []).map fun (position, idiom) => .folded position idiom
    else []
  match result with
  | .error e => folded (some e)
  | .ok program => folded none ++ [.compiled xs.length program.size]

end TapeLang

import TapeLang.CommandLine.Arguments
import TapeLang.CommandLine.Files
import TapeLang.Console.Streams
import TapeLang.Diagnostic
import TapeLang.Generation.Basic
import TapeLang.Report
import TapeLang.Text.Basic

/-! # Source files

How a command can fail, and what every command does first: read the source as text and compile it,
showing a compile error as a diagnostic.
-/

namespace TapeLang.CommandLine

inductive Failure
  | system (error : SystemError)
  | compile (error : CompileError)
  | control (error : ControlError)
  | bounds (error : BoundsError)
  | generation (error : GenerationError)
  | crashed
  deriving DecidableEq, Repr

def Failure.message : Failure → String
  | .system error => "IO error: " ++ error.message
  | .compile error => "Compile error: " ++ error.message
  | .control error => "Control error: " ++ error.message
  | .bounds error => error.message
  | .generation error => "Translation error: " ++ error.message
  | .crashed => "The worker thread panicked"

def readSource (bytes : ByteArray) : Except Failure String :=
  match decodeText? bytes with
  | some text => .ok text
  | none => .error (.system .notText)

def compileSource (job : Job) (source : String) (streams : Streams) :
    Except Failure Program × Streams :=
  let result := compile job.passes source
  let streams := Console.noteAll (compileNotes job.passes source result) streams
  match result with
  | .ok program => (.ok program, streams)
  | .error e =>
    let diagnostic := Diagnostic.ofCompileError job.input source e
    (.error (.compile e), { streams with err := streams.err ++ diagnostic.render })

/-- A source file from its bytes to its text and program. -/
def loadSource (job : Job) (bytes : ByteArray) (streams : Streams) :
    Except Failure (String × Program) × Streams :=
  match readSource bytes with
  | .error failure => (.error failure, streams)
  | .ok source =>
    match compileSource job source streams with
    | (.error failure, streams) => (.error failure, streams)
    | (.ok program, streams) => (.ok (source, program), streams)

end TapeLang.CommandLine

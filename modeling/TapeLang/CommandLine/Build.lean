import TapeLang.CommandLine.Arguments
import TapeLang.CommandLine.Source
import TapeLang.Console.Streams
import TapeLang.Generation.Basic
import TapeLang.Text.Basic

/-! # Writing a program in another language -/

namespace TapeLang.CommandLine

/-- The file to write unless one is named. -/
def outputPath (job : Job) (target : Target) (output : Option String) : String :=
  output.getD (withExtension job.input target.extension)

/-- The sink behind a destination. A device without space refuses what its buffer cannot hold, and
refuses the rest when the buffer is flushed. -/
def Destination.sink (destination : Destination) (writable : Bool) : Sink :=
  if destination = .device .full ∨ (destination = .device .standardOutput ∧ !writable) then
    { capacity := some 8192
      fullReason := SystemError.noSpace.message
      flushFailure := some SystemError.noSpace.message }
  else {}

/-- Generate code into a sink. Gives what was written. -/
def buildProgram (job : Job) (target : Target) (program : Program) (sink : Sink)
    (streams : Streams) : Except Failure ByteArray × Streams :=
  let streams := streams.addNote (.percentGenerated 0)
  match generate target job.config program (fun _ => false) sink with
  | (ending, g) =>
    let streams := Console.noteAll g.notes.reverse streams
    match ending.joined with
    | .error e => (.error (.generation e), streams)
    | .ok _ => (.ok g.sink.bytes, streams)

/-- Leave the code where it belongs. -/
def deliver (destination : Destination) (bytes : ByteArray) (files : Files) (streams : Streams) :
    Files × Streams :=
  let text := (decodeText? bytes).getD ""
  match destination with
  | .file name => (files.set name bytes, streams)
  | .device .standardOutput => (files, { streams with out := streams.out ++ text })
  | .device .standardError => (files, { streams with err := streams.err ++ text })
  | .device _ => (files, streams)

end TapeLang.CommandLine

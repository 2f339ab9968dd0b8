import TapeLang.CommandLine.Source
import TapeLang.Console.Streams
import TapeLang.Session
import TapeLang.Text.Basic

/-! # Running a program over the standard streams -/

namespace TapeLang

/-- Give the whole standard input. It ends before the first line that is no text. -/
def Streams.feed (bytes : ByteArray) (s : Streams) : Streams :=
  match readableLines (byteLines bytes) with
  | (lines, broken) =>
    let input := (s.input.push (String.join lines)).close
    let s := { s with input }
    let s := if broken then s.addNote .inputUnreadable else s
    s.addNote .inputEnded

namespace CommandLine

/-- What the end of a run means for the command. -/
def conclude : Joined → Except Failure Unit
  | .report ⟨.failed error, _⟩ => .error (.bounds error)
  | .report _ => .ok ()
  | _ => .error .crashed

/-- Run a program on the whole standard input, for at most `fuel` moves. -/
def runProgram (config : Config) (program : Program) (stdin : ByteArray) (fuel : Nat)
    (streams : Streams) : Except Failure Unit × Streams :=
  let session : Session config Streams := { console := streams }
  match session.startProgram program with
  | (.error e, session) => (.error (.control e), session.console)
  | (.ok _, session) =>
    let session := { session with console := session.console.feed stdin }
    match (session.settle fuel).join with
    | (joined, session) => (conclude joined, session.console)

end CommandLine

end TapeLang

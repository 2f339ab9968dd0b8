import TapeLang.CommandLine.Basic

/-! # The program

Reads arguments, files and standard input, and writes what the commands leave.
-/

namespace TapeLang.CommandLine

/-- The system's error behind a failed action. -/
def systemErrorOf : IO.Error → SystemError
  | .noFileOrDirectory .. => .noSuchFile
  | e => .other (toString e)

/-- Try an action on files. -/
def attempt {α : Type} (action : IO α) : IO (Except Failure α) := do
  try
    return .ok (← action)
  catch e =>
    return .error (.system (systemErrorOf e))

/-- Write out what the streams hold. -/
def drain (streams : Streams) : IO Streams := do
  let mut rest := streams
  unless streams.out.isEmpty do
    let out ← IO.getStdout
    try
      out.putStr streams.out
      out.flush
    catch _ =>
      rest := rest.addNote .outputRefused
  IO.eprint rest.err
  return { rest with out := "", err := "" }

/-- Wait for the next line of standard input. -/
def pull (streams : Streams) : IO Streams := do
  let finish (s : Streams) : Streams := { s.addNote .inputEnded with input := s.input.close }
  try
    let line ← (← IO.getStdin).getLine
    if line.isEmpty then return finish streams
    return { streams with input := streams.input.push line }
  catch _ =>
    return finish (streams.addNote .inputUnreadable)

/-- How many moves a run makes between two looks at the clock. -/
def burst : Nat := 10000

/-- Let a run go on to its end, serving it lines as it needs them. -/
partial def serve {config : Config} (begun : Nat) (session : Session config Streams) :
    IO (Session config Streams) := do
  let elapsed : Duration := ⟨(← IO.monoNanosNow) - begun⟩
  let session := { session with elapsed }.settle burst
  let session := { session with console := ← drain session.console }
  match session.advance with
  | (true, session) => serve begun session
  | (false, session) =>
    if session.isAlive then serve begun { session with console := ← pull session.console }
    else return session

def serveRun (config : Config) (program : Program) (streams : Streams) :
    IO (Except Failure Unit × Streams) := do
  let session : Session config Streams := { console := streams }
  match session.startProgram program with
  | (.error e, session) => return (.error (.control e), session.console)
  | (.ok _, session) =>
    let (joined, session) := (← serve (← IO.monoNanosNow) session).join
    return (conclude joined, session.console)

/-- Obey lines until the prompt is over. A run goes on for the time that passed between lines. -/
partial def servePrompt {config : DebugConfig} (prompt : Prompt config) :
    IO (Except Failure Unit × Streams) := do
  let prompt := { prompt with streams := ← drain prompt.streams }
  match ← attempt (do (← IO.getStdin).getLine) with
  | .error _ => return (.error (.system .notText), prompt.abandon)
  | .ok line =>
    if line.isEmpty then return (.ok (), prompt.finish)
    let debugger := prompt.debugger.runUntil (← IO.monoNanosNow) Prompt.pace
    match { prompt with debugger }.obey (chompLine line) with
    | (true, prompt) => servePrompt prompt
    | (false, prompt) => return (.ok (), prompt.finish)

def serveBuild (job : Job) (target : Target) (path : String) (program : Program)
    (streams : Streams) : IO (Except Failure Unit × Streams) := do
  match ← attempt (IO.FS.writeBinFile path .empty) with
  | .error failure => return (.error failure, streams)
  | .ok _ =>
    match buildProgram job target program {} streams with
    | (.error failure, streams) => return (.error failure, streams)
    | (.ok bytes, streams) =>
      match ← attempt (IO.FS.writeBinFile path bytes) with
      | .error failure => return (.error failure, streams)
      | .ok _ => return (.ok (), streams.addNote (.wroteFile path))

/-- Carry out a command whose source was loaded. -/
def serveCommand (command : Command) (source : String) (program : Program) (streams : Streams) :
    IO (Except Failure Unit × Streams) := do
  match command with
  | .run job => serveRun job.config program streams
  | .debug job delay breakpoints pause =>
    let config := debugConfig job delay breakpoints pause
    match Prompt.start config (← IO.monoNanosNow) source streams with
    | (.error failure, streams) => return (.error failure, streams)
    | (.ok prompt, _) => servePrompt prompt
  | .build job target output =>
    serveBuild job target (outputPath job target output) program streams
  | .listing _ => return (.ok (), { streams with out := streams.out ++ program.listing })

def serveInvocation (invocation : Invocation) : IO (Except Failure Unit × Streams) := do
  let streams : Streams := { level := invocation.level }
  let job := invocation.command.job
  match ← attempt (IO.FS.readBinFile job.input) with
  | .error failure => return (.error failure, streams)
  | .ok bytes =>
    match loadSource job bytes streams with
    | (.error failure, streams) => return (.error failure, streams)
    | (.ok (source, program), streams) => serveCommand invocation.command source program streams

end TapeLang.CommandLine

open TapeLang.CommandLine in
def main (arguments : List String) : IO UInt32 := do
  match readInvocation arguments with
  | .error .version => IO.print versionText; return 0
  | .error .help => IO.print usage; return 0
  | .error .misuse => IO.eprint usage; return 2
  | .ok invocation =>
    let (result, streams) ← serveInvocation invocation
    let _ ← drain streams
    match result with
    | .ok _ => return 0
    | .error failure =>
      IO.eprintln ("Error: " ++ failure.message)
      return 1

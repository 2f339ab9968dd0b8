import TapeLang.CommandLine.Build
import TapeLang.CommandLine.Prompt
import TapeLang.CommandLine.Run
import TapeLang.CommandLine.Source

/-! # The command line

A whole invocation as a function: from the arguments, the files and the standard input to the exit
code, the two output streams and the files afterwards.
-/

namespace TapeLang.CommandLine

def versionText : String := "bfvm 0.1.0\n"

/-- What an invocation finds. -/
structure Surroundings where
  files : Files := {}
  stdin : ByteArray := .empty
  /-- Whether standard output takes anything. -/
  writable : Bool := true
  /-- What the clock shows, in nanoseconds. -/
  clock : Nat := 0

/-- What an invocation leaves. -/
structure Outcome where
  code : Nat
  out : String := ""
  err : String := ""
  files : Files

/-- The configuration of a debugging session. -/
def debugConfig (job : Job) (delay : Duration) (breakpoints pause : Bool) : DebugConfig :=
  let base : DebugConfig :=
    { machine := job.config, stepDelay := delay, breakpoints, pauseOnStart := pause }
  if job.optimize then base else { base with passes := .none }

/-- More moves than a run makes before it is given up. -/
def runFuel : Nat := 1000000000000

/-- Carry out a command whose source was loaded. -/
def carryOut (command : Command) (source : String) (program : Program) (env : Surroundings)
    (streams : Streams) : Except Failure Unit × Streams × Files :=
  match command with
  | .run job =>
    match runProgram job.config program env.stdin runFuel streams with
    | (result, streams) => (result, streams, env.files)
  | .debug job delay breakpoints pause =>
    match Prompt.start (debugConfig job delay breakpoints pause) env.clock source streams with
    | (.error failure, streams) => (.error failure, streams, env.files)
    | (.ok prompt, _) =>
      match prompt.obeyAll (byteLines env.stdin) with
      | (result, streams) => (result, streams, env.files)
  | .build job target output =>
    let path := outputPath job target output
    match env.files.create path with
    | .error e => (.error (.system e), streams, env.files)
    | .ok destination =>
      match buildProgram job target program (destination.sink env.writable) streams with
      | (.error failure, streams) => (.error failure, streams, env.files)
      | (.ok bytes, streams) =>
        let (files, streams) := deliver destination bytes env.files streams
        (.ok (), streams.addNote (.wroteFile path), files)
  | .listing _ =>
    (.ok (), { streams with out := streams.out ++ program.listing }, env.files)

def Command.job : Command → Job
  | .run job | .debug job .. | .build job .. | .listing job => job

/-- Read a source. What comes from the standard input is not there for the program. -/
def Surroundings.take (env : Surroundings) (path : String) :
    Except SystemError (ByteArray × Surroundings) := do
  match ← env.files.read path with
  | .bytes bytes => return (bytes, env)
  | .standardInput => return (env.stdin, { env with stdin := .empty })

def perform (invocation : Invocation) (env : Surroundings) :
    Except Failure Unit × Streams × Files :=
  let streams : Streams := { level := invocation.level, writable := env.writable }
  match env.take invocation.command.job.input with
  | .error e => (.error (.system e), streams, env.files)
  | .ok (bytes, env) =>
    match loadSource invocation.command.job bytes streams with
    | (.error failure, streams) => (.error failure, streams, env.files)
    | (.ok (source, program), streams) =>
      carryOut invocation.command source program env streams

def usage : String :=
  "Usage: bfvm [OPTIONS] <COMMAND>\n\n" ++
  "Commands: run, debug, build, ir, help\n"

def invoke (arguments : List String) (env : Surroundings) : Outcome :=
  match readInvocation arguments with
  | .error .version => { code := 0, out := versionText, files := env.files }
  | .error .help => { code := 0, out := usage, files := env.files }
  | .error .misuse => { code := 2, err := usage, files := env.files }
  | .ok invocation =>
    match perform invocation env with
    | (.ok _, streams, files) => { code := 0, out := streams.out, err := streams.err, files }
    | (.error failure, streams, files) =>
      { code := 1, out := streams.out
        err := streams.err ++ "Error: " ++ failure.message ++ "\n"
        files }

end TapeLang.CommandLine

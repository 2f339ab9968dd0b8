import TapeLang.Console
import TapeLang.Report

/-! # Background runs

A session runs one program at a time beside its caller. The run makes one move at a time, with the
caller's calls between moves: it passes the boundary before an instruction, where it sees a stop,
and then carries the instruction out, which waits while input is not there. Time passes only as the
caller says.
-/

namespace TapeLang

variable {τ : Type}

/-- A run as its session sees it. -/
inductive Worker (w : CellWidth)
  | atBoundary (program : Program) (machine : Machine w)
  | executing (program : Program) (machine : Machine w)
  | finished (report : Report)
  | crashed

structure Session (config : Config) (τ : Type) where
  console : τ
  worker : Option (Worker config.width) := none
  killed : Bool := false
  /-- Whether a run was made ready before. -/
  used : Bool := false
  /-- How long the run has taken. -/
  elapsed : Duration := .zero

/-- What waiting for a run gives. -/
inductive Joined
  | nothing
  | report (report : Report)
  | crashed
  | pending
  deriving DecidableEq, Repr

namespace Session

variable {config : Config} [Console τ]

def isAlive (s : Session config τ) : Bool :=
  match s.worker with
  | some (.atBoundary ..) | some (.executing ..) => true
  | _ => false

/-- End the run: write the status line and keep the report. -/
def finish (status : RunStatus) (console : τ) (killed used : Bool) (elapsed : Duration) :
    Session config τ :=
  let report : Report := ⟨status, elapsed⟩
  ⟨Console.message report.line console, some (.finished report), killed, used, elapsed⟩

/-- One move of the run; `false` if it has ended or waits for input. -/
@[specialize] def advance : Session config τ → Bool × Session config τ
  | ⟨console, some (.atBoundary program m), killed, used, elapsed⟩ =>
    if killed then (true, finish .stopped console killed used elapsed)
    else (true, ⟨console, some (.executing program m), killed, used, elapsed⟩)
  | ⟨console, some (.executing program m), killed, used, elapsed⟩ =>
    match m.turn program console with
    | .moved _ m console => (true, ⟨console, some (.atBoundary program m), killed, used, elapsed⟩)
    | .halted _ console => (true, finish .completed console killed used elapsed)
    | .faulted error _ console =>
      let console := Console.error error.message (Console.note (.runFault error) console)
      (true, finish (.failed error) console killed used elapsed)
    | .blocked m console =>
      (false, ⟨console, some (.executing program m), killed, used, elapsed⟩)
    | .crashed _ _ console => (true, ⟨console, some .crashed, killed, used, elapsed⟩)
  | s => (false, s)

/-- Let the run go on until it ends or waits for input, for at most `fuel` moves. -/
@[specialize] def settle : Nat → Session config τ → Session config τ
  | 0, s => s
  | fuel + 1, s =>
    match s.advance with
    | (true, s) => settle fuel s
    | (false, s) => s

/-- Take the result of a run that has ended. -/
def join (s : Session config τ) : Joined × Session config τ :=
  match s.worker with
  | none => (.nothing, s)
  | some (.finished report) => (.report report, { s with worker := none })
  | some .crashed =>
    (.crashed, { s with worker := none, console := Console.note .sessionCrashed s.console })
  | some _ => (.pending, s)

/-- Run a program. The system may refuse the run a thread for some reason; by then all has been made
ready for the run. -/
def startProgram (program : Program) (s : Session config τ) (refusal : Option String := none) :
    Except ControlError Unit × Session config τ :=
  if s.isAlive then (.error .alreadyRunning, s)
  else
    let s := s.join.2
    let console := if s.used then Console.reset s.console else s.console
    let console := Console.note (.sessionStarted config.width) console
    match refusal with
    | some reason => (.error (.spawn reason), ⟨console, none, false, true, .zero⟩)
    | none =>
      let console := Console.note (.running program.size config) console
      let worker := match Machine.allocate config.tapeSize config.bounds with
        | .ok machine => .atBoundary program machine
        | .error _ => .crashed
      (.ok (), ⟨console, some worker, false, true, .zero⟩)

/-- Compile a text with all passes and run it. A text that does not compile is reported to the
console. -/
def start (source : String) (s : Session config τ) (refusal : Option String := none) :
    Except ControlError Unit × Session config τ :=
  if s.isAlive then (.error .alreadyRunning, s)
  else
    let result := compile .all source
    let console := Console.noteAll (compileNotes .all source result) s.console
    match result with
    | .ok program => startProgram program { s with console } refusal
    | .error e =>
      (.error (.compile e),
        { s with console := Console.error (ControlError.compile e).message console })

/-- End the run at its next boundary and take its report. An input that the run waits for is at
its end. -/
def stop (s : Session config τ) : Option Report × Session config τ :=
  match s.worker with
  | none => (none, s)
  | some _ =>
    let s := settle 2 { s with killed := true, console := Console.release s.console }
    let (joined, s) := s.join
    let report := match joined with
      | .report report => some report
      | _ => none
    (report, { s with console := Console.note .sessionStopped s.console })

end Session

end TapeLang

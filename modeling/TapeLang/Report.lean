import TapeLang.Block
import TapeLang.Duration

/-! # How a run ended, and calls that were refused -/

namespace TapeLang

inductive RunStatus
  | completed
  | stopped
  | failed (error : BoundsError)
  deriving DecidableEq, Repr

structure Report where
  status : RunStatus
  elapsed : Duration
  deriving DecidableEq, Repr

namespace Report

def isCompleted (r : Report) : Bool := r.status == .completed

/-- The status line, with the time in milliseconds to three places. -/
def line (r : Report) : String :=
  let time := r.elapsed.toMillis.fixed 3 ++ " ms"
  match r.status with
  | .completed => "Program completed in " ++ time
  | .stopped => "Program stopped by user after " ++ time
  | .failed _ => "Program terminated by an error after " ++ time

end Report

/-- A call that an engine cannot honour in its present state. -/
inductive ControlError
  | compile (error : CompileError)
  | alreadyRunning
  | notPaused
  | notRunning
  | spawn (reason : String)
  deriving DecidableEq, Repr

def ControlError.message : ControlError → String
  | .compile error => "Compile error: " ++ error.message
  | .alreadyRunning => "a program is already running"
  | .notPaused => "the program is not paused"
  | .notRunning => "the program is not running"
  | .spawn reason => "could not start the worker thread: " ++ reason

end TapeLang

import TapeLang.Debugger.Basic

/-! # Calls to the debugger

Starting, pausing, resuming, stepping and stopping a run, and letting it go on by itself.
-/

namespace TapeLang

namespace Debugger

variable {config : DebugConfig} {τ : Type} [Console τ]

/-- Compile a text and start it on a fresh tape. A text that does not compile is reported to the
console and leaves the debugger idle. The system may refuse the run a thread for some reason; by
then all has been made ready for the run, and the debugger is left idle. -/
def start (source : String) (d : Debugger config τ) (refusal : Option String := none) :
    Reply × Debugger config τ :=
  if d.control.state = .running ∨ d.control.state = .paused then
    (.refused .alreadyRunning, d)
  else
    let result := compile config.passes source
    let console := Console.noteAll (compileNotes config.passes source result) d.console
    match result with
    | .error e =>
      let error := ControlError.compile e
      (.refused error, { d with
        console := Console.error error.message console
        control := { d.control with state := .idle } })
    | .ok program =>
      let console := if d.program.isSome then Console.reset console else console
      let console := Console.note (.debugStarted config.machine.width program.size) console
      let state := if config.pauseOnStart then .paused else .running
      let d := { d with
        console
        control := .fresh state d.breakpoints config.machine.tapeSize
        program := some program
        worker := none
        startedAt := d.clock }
      match config.throttle, refusal with
      | .error defect, _ => (.crashed defect, d)
      | .ok _, some reason =>
        (.refused (.spawn reason), { d with control := { d.control with state := .idle } })
      | .ok _, none =>
        let machine := Machine.new config.machine.tapeSize .fatal
        (.ok, { d with worker := some (.live program machine .boundary) })

/-- Pause at the next boundary. -/
def pause (d : Debugger config τ) : Reply × Debugger config τ :=
  if d.control.state = .running then
    (.ok, { d with control := { d.control with state := .paused } })
  else (.refused .notRunning, d)

def resume (d : Debugger config τ) : Reply × Debugger config τ :=
  if d.control.state = .paused then
    (.ok, { d with control := { d.control with state := .running, permit := false } })
  else (.refused .notPaused, d)

/-- Allow a parked run one instruction. -/
def allow (d : Debugger config τ) : Debugger config τ :=
  if d.control.state = .paused ∧ d.control.parked = true ∧ d.control.awaiting = false then
    { d with control := { d.control with permit := true } }
  else d

/-- Whether a step need not wait for the run any longer: the run is parked or inside an input
instruction, or it is not paused at all. -/
def isReady (d : Debugger config τ) : Bool :=
  d.control.parked || d.control.awaiting || d.control.state != .paused

/-- Whether a step is done: that many instructions were carried out, the run is inside an input
instruction, or it has ended. -/
def hasStepped (executed : Nat) (d : Debugger config τ) : Bool :=
  executed ≤ d.control.executed || d.control.awaiting || d.control.state == .stopped

/-- Wait until the run has come to `goal`, for at most `fuel` moves. -/
def waitFor (goal : Debugger config τ → Bool) : Nat → Debugger config τ → Debugger config τ
  | 0, d => d
  | fuel + 1, d =>
    if goal d then d
    else
      match d.advance with
      | (true, d) => waitFor goal fuel d
      | (false, d) => d

/-- Let a paused run carry out one instruction, and wait for it. A pause takes effect at the next
boundary, so there may be an instruction to wait for first, which may end the run. Inside an input
instruction that instruction is the step. -/
def step (d : Debugger config τ) : Reply × Debugger config τ :=
  if d.control.state ≠ .paused then (.refused .notPaused, d)
  else
    -- A run that is not ready after four moves can make no fifth; the same holds of three below.
    let d := d.waitFor isReady 4
    if d.control.state ≠ .paused then (.refused .notPaused, d)
    else if d.control.awaiting then (.ok, d)
    else if d.control.parked then
      let executed := d.control.executed + 1
      let d := d.allow.waitFor (hasStepped executed) 3
      (if d.hasStepped executed then .ok else .unanswered, d)
    else (.unanswered, d)

/-- Turn pausing at breakpoints on or off, also during a run. -/
def setBreakpoints (enabled : Bool) (d : Debugger config τ) : Debugger config τ :=
  { d with breakpoints := enabled, control := { d.control with breakpoints := enabled } }

/-- Let the run make at most `fuel` moves, or as many as it can. -/
def settle : Nat → Debugger config τ → Debugger config τ
  | 0, d => d
  | fuel + 1, d =>
    match d.advance with
    | (true, d) => settle fuel d
    | (false, d) => d

/-- End the run and give its report. A run that waits for input finds the input at its end, and a
parked run carries out nothing more. -/
def stop (d : Debugger config τ) : Option Report × Debugger config τ :=
  let d := { d with control := { d.control with kill := true } }
  match d.worker with
  | none => (d.control.report, { d with control := { d.control with state := .stopped } })
  | some _ =>
    let d := settle 3 { d with console := Console.release d.console }
    let console := match d.worker with
      | some .crashed => Console.note .debugCrashed d.console
      | _ => d.console
    (d.control.report, { d with
      console := Console.note .debugStopped console
      control := { d.control with state := .stopped }
      worker := none })

/-- When a sleeping run wakes up. -/
def deadline? (d : Debugger config τ) : Option Nat :=
  match d.worker with
  | some (.live _ _ (.asleep deadline)) => some deadline
  | _ => none

/-- Let the run go on until it can make no move before time `limit`, for at most `fuel` moves. -/
def runUntil (limit : Nat) : Nat → Debugger config τ → Debugger config τ
  | 0, d => d
  | fuel + 1, d =>
    match d.advance with
    | (true, d) => runUntil limit fuel d
    | (false, d) =>
      match d.deadline? with
      | some deadline =>
        if deadline ≤ limit then runUntil limit fuel { d with clock := deadline } else d
      | none => d

/-- Whether the run has ended or is parked. -/
def isSettled (d : Debugger config τ) : Bool :=
  match d.control.state with
  | .idle | .stopped => true
  | .paused => d.control.parked
  | .running => false

/-- Wait until the run has ended or is parked, but no longer than `timeout`. -/
def wait (timeout : Duration) (fuel : Nat) (d : Debugger config τ) : Debugger config τ :=
  let limit := d.clock + timeout.nanoseconds
  let d := d.runUntil limit fuel
  if d.isSettled then d else { d with clock := limit }

/-- The next instruction, if a program was started and has not ended. -/
def currentInstruction? (d : Debugger config τ) : Option Instruction :=
  d.program.bind fun program => program.get? d.control.index

/-- Give up the debugger, stopping a run that was not taken back yet. -/
def close (d : Debugger config τ) : Debugger config τ :=
  if d.worker.isSome then d.stop.2 else d

end Debugger

end TapeLang

import TapeLang.Compile
import TapeLang.Console
import TapeLang.Report

/-! # The debugger

A run that can be paused, resumed and stepped. As in a session the run makes one move at a time
between its caller's calls. What the caller can look at is what the run last published: the
position after every instruction, the tape when it parks, after an instruction carried out while
paused, and at its end.

Time passes only while a throttled run sleeps.
-/

namespace TapeLang

/-- The bounds policy of `machine` is ignored: while debugging, leaving the tape is fatal. -/
structure DebugConfig where
  machine : Config := {}
  passes : Passes := ⟨true, false⟩
  /-- The pause after each instruction. -/
  stepDelay : Duration := .zero
  /-- How many debug sessions the caller runs at once, this one included. -/
  sessions : Nat := 1
  /-- The extra pause for each other session. -/
  sessionDelay : Duration := .ofMillis 5
  breakpoints : Bool := true
  pauseOnStart : Bool := false
  deriving DecidableEq, Repr

/-- The whole pause after each instruction. The number of other sessions counts modulo 2^32. -/
def DebugConfig.throttle (config : DebugConfig) : Except Defect Duration :=
  match config.sessionDelay.scale ((config.sessions - 1) % 4294967296) with
  | .error defect => .error defect
  | .ok extra => config.stepDelay.add extra

inductive RunState
  | idle
  | running
  | paused
  | stopped
  deriving DecidableEq, Repr

def RunState.name : RunState → String
  | .idle => "Idle"
  | .running => "Running"
  | .paused => "Paused"
  | .stopped => "Stopped"

/-- What caller and run share. -/
structure Control (w : CellWidth) where
  state : RunState
  /-- The run must end at the next boundary. -/
  kill : Bool := false
  /-- The run may carry out one instruction while paused. -/
  permit : Bool := false
  /-- The run waits at a boundary. -/
  parked : Bool := false
  /-- The run is inside an input instruction. -/
  awaiting : Bool := false
  /-- Breakpoints pause the run. -/
  breakpoints : Bool
  executed : Nat := 0
  index : Nat := 0
  pointer : Nat := 0
  tape : Tape w
  report : Option Report := none

def Control.fresh {w : CellWidth} (state : RunState) (breakpoints : Bool) (tapeSize : Nat) :
    Control w :=
  { state, breakpoints, tape := .blank tapeSize }

/-- Where a run is in its cycle. -/
inductive Phase
  | boundary
  | executing
  | asleep (deadline : Nat)
  deriving DecidableEq, Repr

inductive DebugWorker (w : CellWidth)
  | live (program : Program) (machine : Machine w) (phase : Phase)
  | ended
  | crashed

/-- The clock cannot show 2^63 seconds. -/
def clockLimit : Nat := 9223372036854775808 * 1000000000

/-- All of a debugger but its run and its console. -/
structure Desk (config : DebugConfig) where
  control : Control config.machine.width :=
    .fresh .idle config.breakpoints config.machine.tapeSize
  /-- The program last started. -/
  program : Option Program := none
  /-- Whether breakpoints pause the runs to come. -/
  breakpoints : Bool := config.breakpoints
  /-- The time, in nanoseconds. -/
  clock : Nat
  startedAt : Nat

structure Debugger (config : DebugConfig) (τ : Type) extends Desk config where
  console : τ
  worker : Option (DebugWorker config.machine.width) := none

/-- The width of the cells that a debugger shows, whatever the machine has. -/
def shownWidth : CellWidth := .thirtyTwo

/-- A debugger that has run nothing, at the time that the clock shows. -/
def Debugger.new {config : DebugConfig} {τ : Type} (clock : Nat) (console : τ) :
    Debugger config τ :=
  { clock, startedAt := clock, console }

/-- A new debugger, if memory can hold the cells it shows. -/
def Debugger.allocate {config : DebugConfig} {τ : Type} (clock : Nat) (console : τ) :
    Except Defect (Debugger config τ) :=
  if shownWidth.canHold config.machine.cellCount then .ok (.new clock console)
  else .error .capacityOverflow

/-- The answer to a call. -/
inductive Reply
  | ok
  | refused (error : ControlError)
  | crashed (defect : Defect)
  /-- The call waits for something that its run will never do. -/
  | unanswered
  deriving DecidableEq, Repr

namespace Control

variable {w : CellWidth}

/-- Show the machine as it is. -/
def publish (m : Machine w) (c : Control w) : Control w :=
  { c with index := m.index, pointer := m.pointer, tape := m.tape }

end Control

namespace Debugger

variable {config : DebugConfig} {τ : Type} [Console τ]

/-- The pause after each instruction of a run. -/
def pauseLength (config : DebugConfig) : Duration :=
  match config.throttle with
  | .ok d => d
  | .error _ => .zero

def isAlive (d : Debugger config τ) : Bool :=
  match d.worker with
  | some (.live ..) => true
  | _ => false

/-- Let the run begin an instruction. -/
def beginInstruction (program : Program) (m : Machine config.machine.width)
    (control : Control config.machine.width) (d : Debugger config τ) : Debugger config τ :=
  let awaiting := decide (program.get? m.index = some (.op .input))
  { d with
    control := { control with parked := false, awaiting }
    worker := some (.live program m .executing) }

/-- End the run: write the status line, publish, and keep the report. -/
def finish (status : RunStatus) (m : Machine config.machine.width) (d : Debugger config τ) :
    Debugger config τ :=
  let report : Report := ⟨status, ⟨d.clock - d.startedAt⟩⟩
  let console := Console.message report.line (Console.note (.debugEnded report) d.console)
  { d with
    console
    control := { d.control.publish m with
      state := .stopped, parked := false, awaiting := false, report := some report }
    worker := some .ended }

/-- Pass the boundary before an instruction, or stop there. -/
def passBoundary (program : Program) (m : Machine config.machine.width) (d : Debugger config τ) :
    Bool × Debugger config τ :=
  if d.control.kill then (true, d.finish .stopped m)
  else if d.control.state = .paused then
    if d.control.permit then
      (true, d.beginInstruction program m { d.control with permit := false })
    else if d.control.parked then (false, d)
    else (true, { d with control := { d.control.publish m with parked := true } })
  else (true, d.beginInstruction program m d.control)

/-- Where a run goes on after an instruction: at the next boundary, or asleep until then. A run
that would sleep longer than the clock can show breaks down. -/
def rest (config : DebugConfig) (state : RunState) (clock : Nat) (program : Program)
    (m : Machine config.machine.width) : DebugWorker config.machine.width :=
  let length := pauseLength config
  let deadline := clock + length.nanoseconds
  if state = .paused ∨ length = .zero then .live program m .boundary
  else if deadline < clockLimit then .live program m (.asleep deadline)
  else .crashed

/-- What follows an instruction that was carried out at `index`. -/
def completeInstruction (desk : Desk config) (program : Program) (index : Nat) (event : Event)
    (m : Machine config.machine.width) (console : τ) : Debugger config τ :=
  let hit := event = .breakpoint ∧ desk.control.breakpoints = true
  let console := if hit then Console.note (.breakpointHit index) console else console
  let console := Console.note (.executed index m.index m.pointer) console
  let state := if hit then .paused else desk.control.state
  let control := { desk.control with
    state, awaiting := false, executed := desk.control.executed + 1,
    index := m.index, pointer := m.pointer }
  let control := if state = .paused then control.publish m else control
  { toDesk := { desk with control }, console
    worker := some (rest config state desk.clock program m) }

/-- Carry out the instruction that was begun. -/
def carryOut (desk : Desk config) (program : Program) (m : Machine config.machine.width)
    (console : τ) : Bool × Debugger config τ :=
  let index := m.index
  let idle := { desk with control := { desk.control with awaiting := false } }
  match m.turn program console with
  | .moved event m console =>
    (true, completeInstruction desk program index event m console)
  | .blocked m console => (false, ⟨desk, console, some (.live program m .executing)⟩)
  | .halted m console => (true, finish .completed m ⟨idle, console, none⟩)
  | .faulted error m console =>
    let console := Console.error error.message (Console.note (.debugFault error) console)
    (true, finish (.failed error) m ⟨idle, console, none⟩)
  | .crashed _ _ console => (true, ⟨desk, console, some .crashed⟩)

/-- One move of the run; `false` if it is parked, asleep, waits for input, or has ended. -/
def advance : Debugger config τ → Bool × Debugger config τ
  | ⟨desk, console, some (.live program m phase)⟩ =>
    match phase with
    | .boundary => passBoundary program m ⟨desk, console, some (.live program m .boundary)⟩
    | .executing => carryOut desk program m console
    | .asleep deadline =>
      if desk.control.kill ∨ desk.control.state ≠ .running ∨ deadline ≤ desk.clock then
        (true, ⟨desk, console, some (.live program m .boundary)⟩)
      else (false, ⟨desk, console, some (.live program m (.asleep deadline))⟩)
  | d => (false, d)

end Debugger

end TapeLang

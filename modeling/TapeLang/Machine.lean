import TapeLang.Program
import TapeLang.Tape

/-! # The machine

`Memory.perform` says what one operation does to the tape and the data pointer; `Machine.step` runs
the instruction under the instruction pointer. Neither reads nor writes: an input or output is
handed to the caller as an `Action`.
-/

namespace TapeLang

variable {w : CellWidth}

/-- A tape with its data pointer. -/
structure Memory (w : CellWidth) where
  tape : Tape w
  pointer : Nat
  deriving DecidableEq, Repr

/-- What an operation asks for. The memory comes along, changed or not. -/
inductive Effect (w : CellWidth)
  | done (memory : Memory w)
  | write (c : Char) (memory : Memory w)
  | read (memory : Memory w)
  | pause (memory : Memory w)
  | trap (trap : Trap) (memory : Memory w)

namespace Memory

def blank (size : Nat) : Memory w := ⟨.blank size, 0⟩

/-- The cell under the data pointer. -/
def current? (s : Memory w) : Option (Cell w) := s.tape.get? s.pointer

/-- The memory after an input. -/
def receive (input : Option Char) : Memory w → Memory w
  | ⟨tape, pointer⟩ => ⟨tape.set pointer (.ofInput input), pointer⟩

def perform (bounds : BoundsPolicy) (o : Op) : Memory w → Effect w
  | ⟨tape, pointer⟩ =>
    match o with
    | .move offset =>
      match tape.offset pointer offset bounds with
      | .ok target => .done ⟨tape, target⟩
      | .error fault => .trap (.fault fault) ⟨tape, pointer⟩
    | .scan direction =>
      match tape.scan pointer direction bounds with
      | .ok target => .done ⟨tape, target⟩
      | .error trap => .trap trap ⟨tape, pointer⟩
    | .breakpoint => .pause ⟨tape, pointer⟩
    | o =>
      match tape.get? pointer with
      | none => .trap (.defect (.indexOutOfBounds tape.size pointer)) ⟨tape, pointer⟩
      | some cell =>
        match o with
        | .add delta => .done ⟨tape.set pointer (cell.add delta), pointer⟩
        | .clear => .done ⟨tape.set pointer .zero, pointer⟩
        | .output => .write cell.toChar ⟨tape, pointer⟩
        | _ => .read ⟨tape, pointer⟩

end Memory

structure Machine (w : CellWidth) where
  memory : Memory w
  /-- The instruction pointer. -/
  index : Nat
  bounds : BoundsPolicy
  deriving DecidableEq, Repr

/-- What one instruction comes to. In `read` the machine still stands on the instruction. -/
inductive Action (w : CellWidth)
  | halt (machine : Machine w)
  | proceed (machine : Machine w)
  | pause (machine : Machine w)
  | write (c : Char) (machine : Machine w)
  | read (machine : Machine w)
  | fault (error : BoundsError) (machine : Machine w)
  | crash (defect : Defect) (machine : Machine w)

namespace Machine

def new (tapeSize : Nat) (bounds : BoundsPolicy) : Machine w := ⟨.blank tapeSize, 0, bounds⟩

/-- A new machine, if memory can hold its tape. -/
def allocate (tapeSize : Nat) (bounds : BoundsPolicy) : Except Defect (Machine w) :=
  (Tape.allocate tapeSize).map fun tape => ⟨⟨tape, 0⟩, 0, bounds⟩

def tape (m : Machine w) : Tape w := m.memory.tape

def pointer (m : Machine w) : Nat := m.memory.pointer

/-- Back to the first instruction, with all cells zero. -/
def reset (m : Machine w) : Machine w := ⟨⟨m.tape.zeroed, 0⟩, 0, m.bounds⟩

/-- Complete an input instruction. -/
def receive (input : Option Char) : Machine w → Machine w
  | ⟨memory, index, bounds⟩ => ⟨memory.receive input, index + 1, bounds⟩

/-- Jump behind instruction `target` if `jump` says so of the current cell, else go on. -/
def branch (target : Nat) (jump : Cell w → Bool) : Machine w → Action w
  | ⟨memory, index, bounds⟩ =>
    match memory.current? with
    | none =>
      .crash (.indexOutOfBounds memory.tape.size memory.pointer) ⟨memory, index, bounds⟩
    | some cell => .proceed ⟨memory, (if jump cell then target else index) + 1, bounds⟩

/-- Run the instruction under the instruction pointer. After a fault the machine stands where it
was. -/
def step (program : Program) : Machine w → Action w
  | ⟨memory, index, bounds⟩ =>
    match program.get? index with
    | none => .halt ⟨memory, index, bounds⟩
    | some (.op o) =>
      match memory.perform bounds o with
      | .done memory => .proceed ⟨memory, index + 1, bounds⟩
      | .pause memory => .pause ⟨memory, index + 1, bounds⟩
      | .write c memory => .write c ⟨memory, index + 1, bounds⟩
      | .read memory => .read ⟨memory, index, bounds⟩
      | .trap (.fault fault) memory =>
        .fault ⟨fault, index, memory.pointer, memory.tape.size⟩ ⟨memory, index, bounds⟩
      | .trap (.defect defect) memory => .crash defect ⟨memory, index, bounds⟩
    | some (.loopStart stop) =>
      if program.get? stop = some (.loopEnd index) then
        branch stop Cell.isZero ⟨memory, index, bounds⟩
      else .crash .unpairedLoop ⟨memory, index, bounds⟩
    | some (.loopEnd start) =>
      if program.get? start = some (.loopStart index) then
        branch start (fun cell => !cell.isZero) ⟨memory, index, bounds⟩
      else .crash .unpairedLoop ⟨memory, index, bounds⟩

end Machine

end TapeLang

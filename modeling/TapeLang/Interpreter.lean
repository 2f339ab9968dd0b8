import TapeLang.Console

/-! # Running to the end

The plain interpreter: a fresh machine runs a program against a console until the program ends, a
fault ends it, or it is stopped. The stop signal is looked at before every instruction.
-/

namespace TapeLang

variable {w : CellWidth} {τ : Type}

/-- How much a run has done so far. -/
structure Progress where
  instructions : Nat := 0
  reads : Nat := 0
  writes : Nat := 0
  deriving DecidableEq, Repr

def Progress.record (event : Event) : Progress → Progress
  | ⟨instructions, reads, writes⟩ =>
    match event with
    | .wrote _ => ⟨instructions + 1, reads, writes + 1⟩
    | .got _ => ⟨instructions + 1, reads + 1, writes⟩
    | _ => ⟨instructions + 1, reads, writes⟩

/-- Where an execution stands when control comes back. -/
inductive Ending
  | ended (status : RunStatus)
  | blocked
  | crashed (defect : Defect)
  | unfinished
  deriving DecidableEq, Repr

structure Outcome (w : CellWidth) (τ : Type) where
  ending : Ending
  machine : Machine w
  console : τ
  progress : Progress

/-- Run at most `fuel` instructions. A fault is noted and reported to the console. -/
@[specialize] def execute [Console τ] (program : Program) (kill : Progress → Bool) :
    Nat → Progress → Machine w → τ → Outcome w τ
  | 0, progress, m, console => ⟨.unfinished, m, console, progress⟩
  | fuel + 1, progress, m, console =>
    if kill progress then ⟨.ended .stopped, m, console, progress⟩
    else
      match m.turn program console with
      | .moved event m console => execute program kill fuel (progress.record event) m console
      | .halted m console => ⟨.ended .completed, m, console, progress⟩
      | .blocked m console => ⟨.blocked, m, console, progress⟩
      | .faulted error m console =>
        ⟨.ended (.failed error), m,
          Console.error error.message (Console.note (.runFault error) console), progress⟩
      | .crashed defect m console => ⟨.crashed defect, m, console, progress⟩

/-- Run a program on a fresh tape and write the status line. Runs share the console and the count
of what was done. No time passes here. A tape that memory cannot hold leaves a machine of one
cell. -/
@[specialize] def interpret [Console τ] (config : Config) (program : Program)
    (kill : Progress → Bool) (fuel : Nat) (progress : Progress) (console : τ) :
    Outcome config.width τ :=
  let console := Console.note (.running program.size config) console
  match Machine.allocate config.tapeSize config.bounds with
  | .error defect => ⟨.crashed defect, .new 1 config.bounds, console, progress⟩
  | .ok m =>
    match execute program kill fuel progress m console with
    | ⟨.ended status, m, console, progress⟩ =>
      ⟨.ended status, m, Console.message (Report.line ⟨status, .zero⟩) console, progress⟩
    | outcome => outcome

end TapeLang

import TapeLang.Journal
import TapeLang.Machine

/-! # Consoles

What a running program talks to: it takes characters, gives characters, and receives the engine's
messages, error reports and notes. `Machine.turn` runs one instruction against a console.
-/

namespace TapeLang

class Console (τ : Type) where
  /-- Take a character of program output; `false` if the console broke under it. -/
  put : Char → τ → Bool × τ
  /-- Give the next character, or `none` at the end of the input. No answer at all means that
  nothing is there yet. -/
  get? : τ → Option (Option Char × τ)
  message : String → τ → τ
  error : String → τ → τ
  note : Note → τ → τ
  /-- From now on every input is at its end, until the next `reset`. -/
  release : τ → τ
  /-- Get ready for a new run. -/
  reset : τ → τ

namespace Console

variable {τ : Type} [Console τ]

def noteAll (notes : List Note) (c : τ) : τ :=
  notes.foldl (fun c n => note n c) c

end Console

/-- What an instruction does that can be seen from outside. -/
inductive Event
  | silent
  | breakpoint
  | wrote (c : Char)
  | got (input : Option Char)
  deriving DecidableEq, Repr

/-- How far one instruction came. -/
inductive Turn (w : CellWidth) (τ : Type)
  | moved (event : Event) (machine : Machine w) (console : τ)
  | halted (machine : Machine w) (console : τ)
  | blocked (machine : Machine w) (console : τ)
  | faulted (error : BoundsError) (machine : Machine w) (console : τ)
  | crashed (defect : Defect) (machine : Machine w) (console : τ)

/-- Run one instruction, its input and output served by `console`. -/
@[specialize] def Machine.turn {w : CellWidth} {τ : Type} [Console τ] (program : Program)
    (m : Machine w) (console : τ) : Turn w τ :=
  match m.step program with
  | .halt m => .halted m console
  | .proceed m => .moved .silent m console
  | .pause m => .moved .breakpoint m console
  | .write c m =>
    match Console.put c console with
    | (true, console) => .moved (.wrote c) m console
    | (false, console) => .crashed .brokenConsole m console
  | .read m =>
    match Console.get? console with
    | some (input, console) => .moved (.got input) (m.receive input) console
    | none => .blocked m console
  | .fault error m => .faulted error m console
  | .crash defect m => .crashed defect m console

end TapeLang

import TapeLang.Target
import TapeLang.Text.Basic

/-! # Plans

The writing of a program in a target language, laid out as a list of tasks. Instructions come in
batches: before each batch there is a chance to cancel, after each batch the share done is
reported.
-/

namespace TapeLang

/-- How many instructions are written between two looks at the cancel signal. -/
def batchSize : Nat := 256

inductive Task
  | write (piece : String)
  /-- Look at the cancel signal, with so many instructions done. -/
  | check (done : Nat)
  /-- Report that so many instructions are done. -/
  | report (done : Nat)
  | flush
  /-- Report the end. -/
  | complete
  deriving DecidableEq, Repr

namespace Plan

/-- The lines of a fragment, with the pieces of each line in reverse. -/
def writeLines (margin : String) : List String → List Task → List Task
  | [], acc => acc
  | line :: rest, acc =>
    writeLines margin rest
      (if line = "" then acc else .write "\n" :: .write line :: .write margin :: acc)

/-- Tasks for the instructions from number `done` on, after the tasks in `acc`, all in reverse. -/
def body (target : Target) (config : Config) :
    List Instruction → Nat → Nat → List Task → List Task
  | [], _, _, acc => acc
  | i :: rest, done, depth, acc =>
    let acc := if done % batchSize = 0 then .check done :: acc else acc
    let shown := i.depthAt depth
    let margin := repeatText target.indentation shown
    let acc := writeLines margin (textLines (target.fragment i config)) acc
    let done := done + 1
    let acc := if done % batchSize = 0 ∨ rest = [] then .report done :: acc else acc
    body target config rest done (i.depthAfter shown) acc

/-- The whole of the generated text, task by task. -/
def tasks (target : Target) (config : Config) (program : Program) : List Task :=
  .write (target.opening config) ::
    (body target config program.code.toList 0 1 []).reverse ++
    [.write (target.closing config), .flush, .complete]

end Plan

end TapeLang

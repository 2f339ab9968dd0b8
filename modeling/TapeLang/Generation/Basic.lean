import TapeLang.Generation.Plan
import TapeLang.Generation.Sink
import TapeLang.Journal
import TapeLang.Number.Binary

/-! # Generating code

Carries out the plan of a program in a target language. The writing ends early if the sink takes no
more, or if the cancel signal is up at the start of a batch. Code may be generated beside the
caller, who can look at the share done, cancel, and wait for the end; a sink that breaks is reported
to whoever waits.
-/

namespace TapeLang

inductive GenerationError
  /-- Writing failed; what was written stays. -/
  | sink (reason : String)
  | cancelled
  deriving DecidableEq, Repr

namespace GenerationError

def message : GenerationError → String
  | .sink reason => "could not write the translated program: " ++ reason
  | .cancelled => "the translation was cancelled"

/-- The error behind an error. -/
def cause : GenerationError → Option String
  | .sink reason => some reason
  | .cancelled => none

end GenerationError

/-- The share `done / total`, in single precision. -/
def fraction (done total : Nat) : BinaryNumber :=
  let f := BinaryFormat.single
  f.div (f.ofNat done) (f.ofNat total)

structure Generation where
  total : Nat
  sink : Sink := {}
  /-- The shares reported, the latest first. -/
  reported : List BinaryNumber := []
  /-- The latest note first. -/
  notes : List Note := []
  /-- The share reported when the sink first saw its watch. -/
  shareAtWatch : Option BinaryNumber := none

inductive GenerationEnd
  | done
  | failed (error : GenerationError)
  | broken
  deriving DecidableEq, Repr

namespace Generation

/-- The share last reported. -/
def share (g : Generation) : BinaryNumber := g.reported.headD .zero

def addNote (n : Note) (g : Generation) : Generation := { g with notes := n :: g.notes }

/-- How a sink's refusal ends the work. -/
def stopFor : SinkError → GenerationEnd
  | .refused reason => .failed (.sink reason)
  | .broken => .broken

def write (piece : String) : Generation → Option GenerationEnd × Generation
  | ⟨total, sink, reported, notes, shareAtWatch⟩ =>
    let before := sink.watched
    match sink.write piece with
    | (error, sink) =>
      let shareAtWatch :=
        if sink.watched && !before then some (reported.headD .zero) else shareAtWatch
      (error.map stopFor, ⟨total, sink, reported, notes, shareAtWatch⟩)

/-- Carry out tasks in order. The signal may depend on what was done so far. -/
def run (cancel : Generation → Bool) : List Task → Generation → GenerationEnd × Generation
  | [], g => (.done, g)
  | .write piece :: rest, g =>
    match g.write piece with
    | (some ending, g) => (ending, g)
    | (none, g) => run cancel rest g
  | .check done :: rest, g =>
    if cancel g then (.failed .cancelled, g.addNote (.generationCancelled done))
    else run cancel rest g
  | .report done :: rest, g =>
    let g := g.addNote (.generated done g.total)
    run cancel rest { g with reported := fraction done g.total :: g.reported }
  | .flush :: rest, g =>
    match g.sink.flush with
    | some error => (stopFor error, g)
    | none => run cancel rest g
  | .complete :: rest, g =>
    run cancel rest { g with reported := fraction 1 1 :: g.reported }

end Generation

/-- Write a program in a target language. -/
def generate (target : Target) (config : Config) (program : Program)
    (cancel : Generation → Bool) (sink : Sink) : GenerationEnd × Generation :=
  let start : Generation :=
    { total := program.size, sink, notes := [.generating program.size target.name config.width] }
  start.run cancel (Plan.tasks target config program)

/-- The result of waiting for a job. -/
def GenerationEnd.joined : GenerationEnd → Except GenerationError Unit
  | .done => .ok ()
  | .failed error => .error error
  | .broken => .error (.sink "the translator thread panicked")

/-- What a caller sees who looks when the sink's watch is reached, or at the end if it never is. -/
structure Glimpse where
  share : BinaryNumber
  alive : Bool

def Generation.glimpse (g : Generation) : Glimpse :=
  match g.shareAtWatch with
  | some share => ⟨share, true⟩
  | none => ⟨g.share, false⟩

/-- A job that is cancelled as soon as the sink's watch is reached. -/
def cancelAtWatch (g : Generation) : Bool := g.sink.watched

end TapeLang

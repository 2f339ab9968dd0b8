import TapeLang.Console
import TapeLang.Console.Input

/-! # The buffered console

Keeps everything in memory: output as a list of tagged segments, input as a queue. Program output
merges into the segment before it if that is program output too; each message and each error is a
segment of its own.
-/

namespace TapeLang

inductive Tag
  | output
  | message
  | error
  deriving DecidableEq, Repr

def Tag.text : Tag → String
  | .output => "output"
  | .message => "message"
  | .error => "error"

structure Segment where
  tag : Tag
  text : String
  deriving DecidableEq, Repr

structure Buffered where
  /-- The latest segment first. -/
  written : List Segment := []
  input : InputQueue := {}
  /-- The latest note first. -/
  notes : List Note := []
  deriving DecidableEq, Repr

namespace Buffered

def withInput (text : String) : Buffered := { input := .ofText text }

/-- Append to segments kept latest first. -/
def append (tag : Tag) (text : String) : List Segment → List Segment
  | ⟨.output, last⟩ :: rest =>
    if tag = .output then ⟨.output, last ++ text⟩ :: rest
    else ⟨tag, text⟩ :: ⟨.output, last⟩ :: rest
  | segments => ⟨tag, text⟩ :: segments

def write (tag : Tag) (text : String) : Buffered → Buffered
  | ⟨written, input, notes⟩ => ⟨append tag text written, input, notes⟩

/-- What is no program output is a segment of its own. -/
theorem written_write {tag : Tag} (h : tag ≠ .output) (text : String) (b : Buffered) :
    (b.write tag text).written = ⟨tag, text⟩ :: b.written := by
  simp only [write, append]
  split
  · next hlast => rw [if_neg h, hlast]
  · rfl

def push (text : String) (b : Buffered) : Buffered := { b with input := b.input.push text }

def close (b : Buffered) : Buffered := { b with input := b.input.close }

def release (b : Buffered) : Buffered := { b with input := b.input.release }

def read? (b : Buffered) : Option (Option Char × Buffered) :=
  b.input.read?.map fun (c, input) => (c, { b with input })

/-- Forget output, input and latches. -/
def reset (b : Buffered) : Buffered := { notes := b.notes }

/-- Forget the output. -/
def clear (b : Buffered) : Buffered := { b with written := [] }

/-- Forget the output and a release; the input stream carries on. -/
def restart (b : Buffered) : Buffered := { b with written := [], input := b.input.restart }

def output (b : Buffered) : List Segment := b.written.reverse

/-- Take the output out of the buffer. -/
def drain (b : Buffered) : List Segment × Buffered := (b.output, b.clear)

def tagged (tag : Tag) (b : Buffered) : List String :=
  (b.output.filter fun s => s.tag = tag).map Segment.text

/-- Everything the program printed. -/
def text (b : Buffered) : String := String.join (b.tagged .output)

def messages (b : Buffered) : List String := b.tagged .message

def errors (b : Buffered) : List String := b.tagged .error

def addNote (n : Note) (b : Buffered) : Buffered := { b with notes := n :: b.notes }

def journal (b : Buffered) : List Note := b.notes.reverse

instance : Console Buffered where
  put c b := (true, b.write .output (String.singleton c))
  get? := read?
  message := write .message
  error := write .error
  note := addNote
  release := release
  reset := reset

end Buffered

end TapeLang

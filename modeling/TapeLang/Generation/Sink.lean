/-! # Sinks

Where generated code goes: bytes are appended until the capacity is used up. A sink can refuse to
be flushed, can break once a number of bytes is written, and can watch for such a number.
-/

namespace TapeLang

structure Sink where
  bytes : ByteArray := .empty
  /-- How many bytes fit. -/
  capacity : Option Nat := none
  /-- What is said when no more fits. -/
  fullReason : String := "disk full"
  /-- What is said when the sink is flushed, if that fails. -/
  flushFailure : Option String := none
  /-- Breaks when a piece is offered after so many bytes. -/
  breaksAt : Option Nat := none
  /-- Watches for a piece offered after so many bytes. -/
  watch : Option Nat := none
  watched : Bool := false

/-- Why a sink took no more. -/
inductive SinkError
  | refused (reason : String)
  | broken
  deriving DecidableEq, Repr

namespace Sink

/-- Whether `size` bytes have come to the mark. -/
def reached (mark : Option Nat) (size : Nat) : Bool :=
  match mark with
  | some n => n ≤ size
  | none => false

/-- How many of `n` bytes fit behind `size` bytes. -/
def fitting (capacity : Option Nat) (size n : Nat) : Nat :=
  match capacity with
  | some capacity => min n (capacity - size)
  | none => n

/-- Append a piece, as far as it fits. An empty piece is not offered. -/
def write (piece : String) : Sink → Option SinkError × Sink
  | ⟨bytes, capacity, fullReason, flushFailure, breaksAt, watch, watched⟩ =>
    let data := piece.toUTF8
    if data.size = 0 then
      (none, ⟨bytes, capacity, fullReason, flushFailure, breaksAt, watch, watched⟩)
    else
      let watched := watched || reached watch bytes.size
      if reached breaksAt bytes.size then
        (some .broken, ⟨bytes, capacity, fullReason, flushFailure, breaksAt, watch, watched⟩)
      else
        let n := fitting capacity bytes.size data.size
        (if n < data.size then some (.refused fullReason) else none,
          ⟨bytes ++ data.extract 0 n, capacity, fullReason, flushFailure, breaksAt, watch,
            watched⟩)

def flush (s : Sink) : Option SinkError := s.flushFailure.map .refused

end Sink

end TapeLang

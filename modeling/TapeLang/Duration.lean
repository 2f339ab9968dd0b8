import TapeLang.Fault
import TapeLang.Number.Decimal

/-! # Durations

Time spans in whole nanoseconds, of less than 2^64 seconds.
-/

namespace TapeLang

structure Duration where
  nanoseconds : Nat
  deriving DecidableEq, Repr

namespace Duration

def zero : Duration := ⟨0⟩

def ofMillis (millis : Nat) : Duration := ⟨millis * 1000000⟩

def seconds (d : Duration) : Nat := d.nanoseconds / 1000000000

def subsecNanos (d : Duration) : Nat := d.nanoseconds % 1000000000

/-- The least number of nanoseconds that is no duration. -/
def limit : Nat := 18446744073709551616 * 1000000000

/-- Nanoseconds beyond a second carry into the seconds. -/
def ofParts (seconds nanos : Nat) : Except Defect Duration :=
  let nanoseconds := seconds * 1000000000 + nanos
  if nanoseconds < limit then .ok ⟨nanoseconds⟩ else .error .durationOverflow

def add (a b : Duration) : Except Defect Duration :=
  if a.nanoseconds + b.nanoseconds < limit then .ok ⟨a.nanoseconds + b.nanoseconds⟩
  else .error .durationSumOverflow

def scale (a : Duration) (n : Nat) : Except Defect Duration :=
  if a.nanoseconds * n < limit then .ok ⟨a.nanoseconds * n⟩
  else .error .durationProductOverflow

/-- Milliseconds in double precision: whole seconds plus the fraction of a second, times 1000, each
operation rounded. -/
def toMillis (d : Duration) : BinaryNumber :=
  let f := BinaryFormat.double
  let fraction := f.div (f.ofNat d.subsecNanos) (f.ofNat 1000000000)
  f.mul (f.add (f.ofNat d.seconds) fraction) (f.ofNat 1000)

end Duration

end TapeLang

/-! # Queued input

Characters waiting to be read, behind two latches: a closed queue ends once it is empty, and a
released one is at its end at once, whatever it holds.
-/

namespace TapeLang

structure InputQueue where
  chars : List Char := []
  closed : Bool := false
  released : Bool := false
  deriving DecidableEq, Repr

namespace InputQueue

/-- The whole input is known. -/
def ofText (text : String) : InputQueue := ⟨text.toList, true, false⟩

def push (text : String) (q : InputQueue) : InputQueue :=
  { q with chars := q.chars ++ text.toList }

def close (q : InputQueue) : InputQueue := { q with closed := true }

def release (q : InputQueue) : InputQueue := { q with released := true }

/-- Undo a release; the stream carries on. -/
def restart (q : InputQueue) : InputQueue := { q with released := false }

/-- The next character, `none` at the end; no answer if nothing is there yet. -/
def read? (q : InputQueue) : Option (Option Char × InputQueue) :=
  if q.released then some (none, q)
  else
    match q.chars with
    | c :: rest => some (some c, { q with chars := rest })
    | [] => if q.closed then some (none, q) else none

end InputQueue

end TapeLang

import TapeLang.Debugger.Basic
import TapeLang.Settings.Value

/-! # Reading settings

Settings are records, or lists of their fields in order. A record's fields are read in the order of
their names and the first bad one is reported; fields that are missing are reported after that.
Items behind the fields of a list are reported last.
-/

namespace TapeLang

inductive SettingsError
  | invalidType (found : String) (expected : String)
  | invalidValue (found : String) (expected : String)
  | invalidLength (length : Nat) (expected : String)
  | missingField (name : String)
  | unknownField (name : String) (known : List String)
  | unknownVariant (name : String) (known : List String)
  | durationOverflow
  deriving DecidableEq, Repr

namespace SettingsError

/-- One of the names allowed. -/
def alternatives (names : List String) : String :=
  let names := names.map fun n => "`" ++ n ++ "`"
  match names with
  | [a, b] => a ++ " or " ++ b
  | names => "one of " ++ ", ".intercalate names

def message : SettingsError → String
  | .invalidType found expected => "invalid type: " ++ found ++ ", expected " ++ expected
  | .invalidValue found expected => "invalid value: " ++ found ++ ", expected " ++ expected
  | .invalidLength length expected =>
    "invalid length " ++ toString length ++ ", expected " ++ expected
  | .missingField name => "missing field `" ++ name ++ "`"
  | .unknownField name known =>
    "unknown field `" ++ name ++ "`, expected " ++ alternatives known
  | .unknownVariant name known =>
    "unknown variant `" ++ name ++ "`, expected " ++ alternatives known
  | .durationOverflow => "overflow deserializing Duration"

end SettingsError

namespace Settings

abbrev Result (α : Type) := Except SettingsError α

/-- A number below `limit`. -/
def natural (limit : Nat) (expected : String) : Value → Result Nat
  | .int n =>
    if 0 ≤ n ∧ n < limit then .ok n.toNat
    else .error (.invalidValue (Value.int n).description expected)
  | v => .error (.invalidType v.description expected)

def size : Value → Result Nat := natural 18446744073709551616 "usize"

def boolean : Value → Result Bool
  | .bool b => .ok b
  | v => .error (.invalidType v.description "a boolean")

/-- One of several named choices, given by its name or as a record with that name alone. -/
def choice {α : Type} (choices : List (String × α)) (v : Value) : Result α :=
  let named (name : String) : Result α :=
    match choices.lookup name with
    | some a => .ok a
    | none => .error (.unknownVariant name (choices.map Prod.fst))
  match v with
  | .text name => named name
  | .record [(name, content)] => do
    let a ← named name
    match content with
    | .null => .ok a
    | v => .error (.invalidType v.description "unit")
  | .record fields =>
    .error (.invalidValue (Value.record fields).description "map with a single key")
  | v => .error (.invalidType v.description "string or map")

def cellWidth : Value → Result CellWidth :=
  choice [("Eight", .eight), ("Sixteen", .sixteen), ("ThirtyTwo", .thirtyTwo)]

def boundsPolicy : Value → Result BoundsPolicy :=
  choice [("Wrap", .wrap), ("Fatal", .fatal)]

/-- A field that must be there. -/
def required {α : Type} (name : String) : Option α → Result α
  | some a => .ok a
  | none => .error (.missingField name)

/-- How the fields of a record are gathered: a draft is filled field by field, then finished. -/
structure Shape (δ α : Type) where
  name : String
  fields : List String
  /-- Fill in one of the fields. -/
  fill : String → Value → δ → Result δ
  finish : δ → Result α
  /-- What a list that is too short is told. -/
  expectedItems : String
  /-- Whether other fields are refused. -/
  strict : Bool := false

namespace Shape

variable {δ α : Type}

def fillField (shape : Shape δ α) (draft : δ) (field : String × Value) : Result δ :=
  if field.1 ∈ shape.fields then shape.fill field.1 field.2 draft
  else if shape.strict then .error (.unknownField field.1 shape.fields)
  else .ok draft

/-- Fill a draft from the items of a list, `count` of them being read already. -/
def fillItems (shape : Shape δ α) : List String → List Value → Nat → δ → Result δ
  | [], _, _, draft => .ok draft
  | _ :: _, [], count, _ => .error (.invalidLength count shape.expectedItems)
  | field :: fields, v :: rest, count, draft => do
    let draft ← shape.fill field v draft
    shape.fillItems fields rest (count + 1) draft

def read (shape : Shape δ α) (draft : δ) : Value → Result α
  | .record fields => do shape.finish (← fields.foldlM shape.fillField draft)
  | .list items => do
    let a ← shape.finish (← shape.fillItems shape.fields items 0 draft)
    if items.length ≤ shape.fields.length then return a
    else .error (.invalidLength items.length "fewer elements in array")
  | v => .error (.invalidType v.description ("struct " ++ shape.name))

end Shape

structure DurationDraft where
  seconds : Option Nat := none
  nanos : Option Nat := none

def DurationDraft.finish (draft : DurationDraft) : Result Duration := do
  let seconds ← required "secs" draft.seconds
  let nanos ← required "nanos" draft.nanos
  match Duration.ofParts seconds nanos with
  | .ok d => .ok d
  | .error _ => .error .durationOverflow

def durationShape : Shape DurationDraft Duration where
  name := "Duration"
  fields := ["secs", "nanos"]
  expectedItems := "struct Duration"
  strict := true
  finish := DurationDraft.finish
  fill field v draft :=
    match field with
    | "secs" => do
      return { draft with seconds := some (← natural 18446744073709551616 "u64" v) }
    | _ => do return { draft with nanos := some (← natural 4294967296 "u32" v) }

def duration : Value → Result Duration := durationShape.read {}

structure ConfigDraft where
  width : Option CellWidth := none
  tapeSize : Option Nat := none
  bounds : Option BoundsPolicy := none

def ConfigDraft.finish (draft : ConfigDraft) : Result Config := do
  let width ← required "cell_width" draft.width
  let tapeSize ← required "tape_size" draft.tapeSize
  let bounds ← required "bounds" draft.bounds
  return { width, tapeSize, bounds }

def configShape : Shape ConfigDraft Config where
  name := "Config"
  fields := ["cell_width", "tape_size", "bounds"]
  expectedItems := "struct Config with 3 elements"
  finish := ConfigDraft.finish
  fill field v draft :=
    match field with
    | "cell_width" => do return { draft with width := some (← cellWidth v) }
    | "tape_size" => do return { draft with tapeSize := some (← size v) }
    | _ => do return { draft with bounds := some (← boundsPolicy v) }

def config : Value → Result Config := configShape.read {}

structure PassesDraft where
  foldIdioms : Option Bool := none
  coalesce : Option Bool := none

def PassesDraft.finish (draft : PassesDraft) : Result Passes := do
  let foldIdioms ← required "fold_idioms" draft.foldIdioms
  let coalesce ← required "coalesce" draft.coalesce
  return { foldIdioms, coalesce }

def passesShape : Shape PassesDraft Passes where
  name := "Optimizations"
  fields := ["fold_idioms", "coalesce"]
  expectedItems := "struct Optimizations with 2 elements"
  finish := PassesDraft.finish
  fill field v draft :=
    match field with
    | "fold_idioms" => do return { draft with foldIdioms := some (← boolean v) }
    | _ => do return { draft with coalesce := some (← boolean v) }

def passes : Value → Result Passes := passesShape.read {}

structure DebugConfigDraft where
  machine : Option Config := none
  passes : Option Passes := none
  stepDelay : Option Duration := none
  sessions : Option Nat := none
  sessionDelay : Option Duration := none
  breakpoints : Option Bool := none
  pauseOnStart : Option Bool := none

def DebugConfigDraft.finish (draft : DebugConfigDraft) : Result DebugConfig := do
  let machine ← required "machine" draft.machine
  let passes ← required "optimizations" draft.passes
  let stepDelay ← required "step_delay" draft.stepDelay
  let sessions ← required "concurrent_sessions" draft.sessions
  let sessionDelay ← required "session_delay" draft.sessionDelay
  let breakpoints ← required "breakpoints" draft.breakpoints
  let pauseOnStart ← required "pause_on_start" draft.pauseOnStart
  return { machine, passes, stepDelay, sessions, sessionDelay, breakpoints, pauseOnStart }

def debugConfigShape : Shape DebugConfigDraft DebugConfig where
  name := "DebugConfig"
  fields := ["machine", "optimizations", "step_delay", "concurrent_sessions", "session_delay",
    "breakpoints", "pause_on_start"]
  expectedItems := "struct DebugConfig with 7 elements"
  finish := DebugConfigDraft.finish
  fill field v draft :=
    match field with
    | "machine" => do return { draft with machine := some (← config v) }
    | "optimizations" => do return { draft with passes := some (← passes v) }
    | "step_delay" => do return { draft with stepDelay := some (← duration v) }
    | "concurrent_sessions" => do return { draft with sessions := some (← size v) }
    | "session_delay" => do return { draft with sessionDelay := some (← duration v) }
    | "breakpoints" => do return { draft with breakpoints := some (← boolean v) }
    | _ => do return { draft with pauseOnStart := some (← boolean v) }

def debugConfig : Value → Result DebugConfig := debugConfigShape.read {}

end Settings

end TapeLang

import TapeLang.Config
import TapeLang.Duration
import TapeLang.Journal
import TapeLang.Target.C
import TapeLang.Target.Python
import TapeLang.Target.Rust

/-! # Arguments

The grammar of the command line. Options may stand anywhere around the positional argument; a value
follows its option in the next argument, behind an equals sign, or directly behind a short name.
Reading goes from left to right, and the first thing wrong ends it.
-/

namespace TapeLang.CommandLine

/-- What every command knows of the program and its machine. -/
structure Job where
  input : String
  config : Config := {}
  optimize : Bool := true

def Job.passes (job : Job) : Passes := if job.optimize then .all else .none

inductive Command
  | run (job : Job)
  | debug (job : Job) (delay : Duration) (breakpoints pause : Bool)
  | build (job : Job) (target : Target) (output : Option String)
  | listing (job : Job)

/-- One option as given. -/
inductive Setting
  | level (level : Level)
  | width (width : CellWidth)
  | tapeSize (size : Nat)
  | bounds (bounds : BoundsPolicy)
  | noOptimize
  | delay (delay : Duration)
  | noBreakpoints
  | pause
  | target (target : Target)
  | output (path : String)

/-- Why reading ended before a command was known. -/
inductive Stop
  | help
  | version
  | misuse
  deriving DecidableEq, Repr

/-- What an option needs to become a setting. -/
inductive Arity
  | flag (setting : Setting)
  | valued (read : String → Option Setting)
  | stop (stop : Stop)

structure OptionSpec where
  name : String
  letter : Option Char := none
  arity : Arity

/-- A number below 2^64 in decimal digits, with or without a plus sign. -/
def readNumber (text : String) : Option Nat :=
  let digits := match text.toList with
    | '+' :: digits => digits
    | digits => digits
  if digits ≠ [] ∧ digits.all Char.isDigit then
    let n := digits.foldl (fun n c => 10 * n + (c.toNat - '0'.toNat)) 0
    if n < 18446744073709551616 then some n else none
  else none

/-- One of several values by its name. -/
def readChoice {α : Type} (choices : List (String × α)) (setting : α → Setting) (text : String) :
    Option Setting :=
  (choices.lookup text).map setting

def levelOption : OptionSpec where
  name := "log-level"
  letter := some 'l'
  arity := .valued <| readChoice [("off", .off), ("error", .error), ("warn", .warn),
    ("info", .info), ("debug", .debug), ("trace", .trace)] .level

def helpOption : OptionSpec := ⟨"help", some 'h', .stop .help⟩

def mainOptions : List OptionSpec :=
  [levelOption, helpOption, ⟨"version", some 'V', .stop .version⟩]

def jobOptions : List OptionSpec := [
  levelOption,
  helpOption,
  ⟨"width", some 'w', .valued <|
    readChoice [("8", .eight), ("16", .sixteen), ("32", .thirtyTwo)] .width⟩,
  ⟨"tape-size", none, .valued fun text => (readNumber text).map .tapeSize⟩,
  ⟨"bounds", some 'b', .valued <| readChoice [("wrap", .wrap), ("fatal", .fatal)] .bounds⟩,
  ⟨"no-optimize", none, .flag .noOptimize⟩]

def debugOptions : List OptionSpec := jobOptions ++ [
  ⟨"delay-ms", none, .valued fun text =>
    (readNumber text).map fun n => .delay (Duration.ofMillis n)⟩,
  ⟨"no-breakpoints", none, .flag .noBreakpoints⟩,
  ⟨"pause", none, .flag .pause⟩]

def buildOptions : List OptionSpec := jobOptions ++ [
  ⟨"target", some 't', .valued <|
    readChoice [("c", .c), ("rust", .rust), ("python", .python)] .target⟩,
  ⟨"output", some 'o', .valued fun text => some (.output text)⟩]

/-- An argument by its shape. -/
inductive Shape
  | long (name : String) (value : Option String)
  | short (letter : Char) (value : Option String)
  /-- Everything after it is positional. -/
  | separator
  | plain

def Shape.ofArgument (argument : String) : Shape :=
  match argument.toList with
  | ['-', '-'] => .separator
  | '-' :: '-' :: rest =>
    let name := rest.takeWhile (· != '=')
    match rest.dropWhile (· != '=') with
    | _ :: value => .long (String.ofList name) (some (String.ofList value))
    | [] => .long (String.ofList name) none
  | ['-', letter] => .short letter none
  | '-' :: letter :: '=' :: value => .short letter (some (String.ofList value))
  | '-' :: letter :: value => .short letter (some (String.ofList value))
  | _ => .plain

/-- What the arguments read so far hold. -/
structure Draft where
  /-- Names of the options given, and their settings, the latest first. -/
  settings : List (String × Setting) := []
  positional : Option String := none

namespace Draft

/-- Add a setting; an option may be given once. -/
def add (name : String) (setting : Setting) (d : Draft) : Except Stop Draft :=
  if d.settings.any (·.1 == name) then .error .misuse
  else .ok { d with settings := (name, setting) :: d.settings }

def addPositional (argument : String) (d : Draft) : Except Stop Draft :=
  if d.positional.isSome then .error .misuse else .ok { d with positional := some argument }

end Draft

/-- An option that stands alone, or one that waits for its value. -/
inductive Use
  | complete (draft : Draft)
  | awaiting (name : String) (read : String → Option Setting)

/-- Read an option with the value written in the same argument, if any. -/
def useOption (spec : OptionSpec) (attached : Option String) (isShort : Bool) (draft : Draft) :
    Except Stop Use :=
  match spec.arity, attached with
  | .stop stop, none => .error stop
  | .stop stop, some _ => .error (if isShort then stop else .misuse)
  | .flag setting, none => (draft.add spec.name setting).map .complete
  | .flag _, some _ => .error .misuse
  | .valued read, none => .ok (.awaiting spec.name read)
  | .valued read, some text =>
    match read text with
    | some setting => (draft.add spec.name setting).map .complete
    | none => .error .misuse

/-- Read an argument that has the shape of an option. -/
def readOption (known : List OptionSpec) (shape : Shape) (draft : Draft) : Except Stop Use :=
  match shape with
  | .long name value =>
    match known.find? (·.name == name) with
    | some spec => useOption spec value false draft
    | none => .error .misuse
  | .short letter value =>
    match known.find? (·.letter == some letter) with
    | some spec => useOption spec value true draft
    | none => .error .misuse
  | _ => .error .misuse

/-- The value that an option waits for. -/
def readValue (name : String) (read : String → Option Setting) (argument : String)
    (draft : Draft) : Except Stop Draft :=
  match Shape.ofArgument argument with
  | .plain =>
    match read argument with
    | some setting => draft.add name setting
    | none => .error .misuse
  | _ => .error .misuse

/-- Arguments after a separator are positional. -/
def readPositionals : List String → Draft → Except Stop Draft
  | [], draft => .ok draft
  | argument :: rest, draft => do
    let draft ← draft.addPositional argument
    readPositionals rest draft

/-- Read the arguments of a command. -/
def readArguments (known : List OptionSpec) : List String → Draft → Except Stop Draft
  | [], draft => .ok draft
  | argument :: rest, draft =>
    match Shape.ofArgument argument with
    | .separator => readPositionals rest draft
    | .plain => do
      let draft ← draft.addPositional argument
      readArguments known rest draft
    | shape => do
      match ← readOption known shape draft with
      | .complete draft => readArguments known rest draft
      | .awaiting name read =>
        match rest with
        | [] => .error .misuse
        | value :: rest => do
          let draft ← readValue name read value draft
          readArguments known rest draft

/-- Read the options before the command; gives the command's name and its arguments. -/
def readMain : List String → Draft → Except Stop (Draft × String × List String)
  | [], _ => .error .misuse
  | argument :: rest, draft =>
    match Shape.ofArgument argument with
    | .separator => .error .misuse
    | .plain => .ok (draft, argument, rest)
    | shape => do
      match ← readOption mainOptions shape draft with
      | .complete draft => readMain rest draft
      | .awaiting name read =>
        match rest with
        | [] => .error .misuse
        | value :: rest => do
          let draft ← readValue name read value draft
          readMain rest draft

namespace Draft

/-- The first setting that `pick` takes, or a default. -/
def find {α : Type} (d : Draft) (pick : Setting → Option α) (default : α) : α :=
  (d.settings.findSome? fun s => pick s.2).getD default

def level? (d : Draft) : Option Level :=
  d.find (fun | .level l => some (some l) | _ => none) none

def job (d : Draft) : Except Stop Job :=
  match d.positional with
  | none => .error .misuse
  | some input =>
    .ok {
      input
      config := {
        width := d.find (fun | .width w => some w | _ => none) .eight
        tapeSize := d.find (fun | .tapeSize n => some n | _ => none) defaultTapeSize
        bounds := d.find (fun | .bounds b => some b | _ => none) .wrap }
      optimize := d.find (fun | .noOptimize => some false | _ => none) true }

end Draft

structure Invocation where
  command : Command
  level : Level

def commandNames : List String := ["run", "debug", "build", "ir", "help"]

/-- Read the arguments of a named command. -/
def readCommand (name : String) (arguments : List String) : Except Stop (Draft × Command) :=
  match name with
  | "run" => do
    let d ← readArguments jobOptions arguments {}
    return (d, .run (← d.job))
  | "debug" => do
    let d ← readArguments debugOptions arguments {}
    return (d, .debug (← d.job)
      (d.find (fun | .delay t => some t | _ => none) .zero)
      (d.find (fun | .noBreakpoints => some false | _ => none) true)
      (d.find (fun | .pause => some true | _ => none) false))
  | "build" => do
    let d ← readArguments buildOptions arguments {}
    return (d, .build (← d.job)
      (d.find (fun | .target t => some t | _ => none) .c)
      (d.find (fun | .output path => some (some path) | _ => none) none))
  | "ir" => do
    let d ← readArguments jobOptions arguments {}
    return (d, .listing (← d.job))
  | "help" =>
    match arguments with
    | [] => .error .help
    | [name] => .error (if name ∈ commandNames then .help else .misuse)
    | _ => .error .misuse
  | _ => .error .misuse

/-- Read a whole command line. The log level may be given before and after the command's name; the
later one counts. -/
def readInvocation (arguments : List String) : Except Stop Invocation := do
  let (outer, name, rest) ← readMain arguments {}
  let (inner, command) ← readCommand name rest
  return { command, level := (inner.level?.or outer.level?).getD .warn }

end TapeLang.CommandLine

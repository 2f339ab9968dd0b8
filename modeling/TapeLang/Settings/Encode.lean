import TapeLang.Debugger.Basic
import TapeLang.Program
import TapeLang.Settings.Value

/-! # Writing settings and programs as values -/

namespace TapeLang

def CellWidth.toValue : CellWidth → Value
  | .eight => .text "Eight"
  | .sixteen => .text "Sixteen"
  | .thirtyTwo => .text "ThirtyTwo"

def BoundsPolicy.toValue : BoundsPolicy → Value
  | .wrap => .text "Wrap"
  | .fatal => .text "Fatal"

def Config.toValue (config : Config) : Value :=
  .record [("bounds", config.bounds.toValue), ("cell_width", config.width.toValue),
    ("tape_size", .int config.tapeSize)]

def Passes.toValue (passes : Passes) : Value :=
  .record [("coalesce", .bool passes.coalesce), ("fold_idioms", .bool passes.foldIdioms)]

def Duration.toValue (d : Duration) : Value :=
  .record [("nanos", .int d.subsecNanos), ("secs", .int d.seconds)]

def DebugConfig.toValue (config : DebugConfig) : Value :=
  .record [("breakpoints", .bool config.breakpoints),
    ("concurrent_sessions", .int config.sessions),
    ("machine", config.machine.toValue),
    ("optimizations", config.passes.toValue),
    ("pause_on_start", .bool config.pauseOnStart),
    ("session_delay", config.sessionDelay.toValue),
    ("step_delay", config.stepDelay.toValue)]

def Instruction.toValue : Instruction → Value
  | .op (.move offset) => .record [("Address", .int offset)]
  | .op (.add delta) => .record [("Data", .int delta)]
  | .op .input => .text "Input"
  | .op .output => .text "Output"
  | .op .clear => .text "SetZero"
  | .op (.scan .left) => .text "ScanZeroLeft"
  | .op (.scan .right) => .text "ScanZeroRight"
  | .op .breakpoint => .text "Breakpoint"
  | .loopStart stop => .record [("LoopStart", .int stop)]
  | .loopEnd start => .record [("LoopEnd", .int start)]

def Program.toValue (p : Program) : Value :=
  .list (p.code.toList.map Instruction.toValue)

end TapeLang

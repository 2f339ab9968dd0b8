import TapeLang.Target

/-! # Code in Python

Integers do not overflow there, so each cell is reduced to its width after every change. Blocks are
indentation only: the end of a loop leaves no text, and every loop body starts with `pass`.
-/

namespace TapeLang

namespace TargetPython

def declarations (config : Config) : String :=
  linesOf [
    "#!/usr/bin/env python3",
    "import sys",
    "",
    "TAPE_SIZE = " ++ toString config.cellCount,
    "BITS = " ++ toString config.width.bits,
    "MASK = (1 << BITS) - 1",
    "",
    ""]

def addRoutine : CellWidth → String
  | .thirtyTwo => linesOf [
    "def add(cell, d):",
    "    cell = (cell + d) & MASK",
    "    return cell - (1 << BITS) if cell >= (1 << (BITS - 1)) else cell",
    "",
    ""]
  | _ => linesOf [
    "def add(cell, d):",
    "    return (cell + d) & MASK",
    "",
    ""]

def routines : String :=
  linesOf [
    "def bounds(what):",
    "    sys.stdout.flush()",
    "    sys.stderr.write(\"Bounds error: \" + what + \"\\n\")",
    "    sys.exit(1)",
    "",
    "",
    "def put(cell):",
    "    code = cell & 0xFFFFFFFF",
    "    if code > 0x10FFFF or 0xD800 <= code <= 0xDFFF:",
    "        code = 0xFFFD",
    "    sys.stdout.write(chr(code))",
    "",
    "",
    "def get():",
    "    sys.stdout.flush()",
    "    ch = sys.stdin.read(1)",
    "    return add(0, ord(ch)) if ch else 0",
    "",
    ""]

def shiftRoutine : BoundsPolicy → String
  | .wrap => linesOf [
    "def shift(p, d):",
    "    return (p + d) % TAPE_SIZE",
    "",
    ""]
  | .fatal => linesOf [
    "def shift(p, d):",
    "    q = p + d",
    "    if q < 0:",
    "        bounds(\"the data pointer moved below cell 0\")",
    "    if q >= TAPE_SIZE:",
    "        bounds(\"the data pointer moved past the last cell\")",
    "    return q",
    "",
    ""]

def scanRoutines : BoundsPolicy → String
  | .wrap => linesOf [
    "def scan_right(tape, p):",
    "    try:",
    "        return tape.index(0, p)",
    "    except ValueError:",
    "        pass",
    "    try:",
    "        return tape.index(0, 0, p)",
    "    except ValueError:",
    "        bounds(\"no cell on the tape is zero\")",
    "",
    "",
    "def scan_left(tape, p):",
    "    for i in range(p, -1, -1):",
    "        if tape[i] == 0:",
    "            return i",
    "    for i in range(TAPE_SIZE - 1, p, -1):",
    "        if tape[i] == 0:",
    "            return i",
    "    bounds(\"no cell on the tape is zero\")",
    "",
    ""]
  | .fatal => linesOf [
    "def scan_right(tape, p):",
    "    try:",
    "        return tape.index(0, p)",
    "    except ValueError:",
    "        bounds(\"the data pointer moved past the last cell\")",
    "",
    "",
    "def scan_left(tape, p):",
    "    for i in range(p, -1, -1):",
    "        if tape[i] == 0:",
    "            return i",
    "    bounds(\"the data pointer moved below cell 0\")",
    "",
    ""]

def opening (config : Config) : String :=
  declarations config ++ addRoutine config.width ++ routines ++ shiftRoutine config.bounds ++
    scanRoutines config.bounds ++
    linesOf ["def main():", "    tape = [0] * TAPE_SIZE", "    p = 0"]

def closing : String :=
  linesOf ["    sys.stdout.flush()", "", "", "if __name__ == \"__main__\":", "    main()"]

def fragment : Instruction → String
  | .op (.move offset) => "p = shift(p, " ++ decimal offset ++ ")"
  | .op (.add delta) => "tape[p] = add(tape[p], " ++ decimal delta ++ ")"
  | .op .output => "put(tape[p])"
  | .op .input => "tape[p] = get()"
  | .op .clear => "tape[p] = 0"
  | .op (.scan .left) => "p = scan_left(tape, p)"
  | .op (.scan .right) => "p = scan_right(tape, p)"
  | .op .breakpoint => "# breakpoint"
  | .loopStart _ => "while tape[p]:\n    pass"
  | .loopEnd _ => ""

end TargetPython

def Target.python : Target where
  name := "Python"
  extension := "py"
  opening := TargetPython.opening
  closing _ := TargetPython.closing
  fragment i _ := TargetPython.fragment i

end TapeLang

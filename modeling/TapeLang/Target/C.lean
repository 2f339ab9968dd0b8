import TapeLang.Target

/-! # Code in C

The generated program needs a C99 compiler and the standard library.
-/

namespace TapeLang

namespace TargetC

def cellType : CellWidth → String
  | .eight => "uint8_t"
  | .sixteen => "uint16_t"
  | .thirtyTwo => "int32_t"

def declarations (config : Config) : String :=
  linesOf [
    "#include <stdint.h>",
    "#include <stdio.h>",
    "#include <stdlib.h>",
    "#include <string.h>",
    "",
    "typedef " ++ cellType config.width ++ " cell;",
    "static cell tape[" ++ toString config.cellCount ++ "];",
    "static size_t p = 0;",
    ""]

def boundsRoutine : String :=
  linesOf [
    "static void bounds(const char *what) \x7b",
    "    fflush(stdout);",
    "    fprintf(stderr, \"Bounds error: %s\\n\", what);",
    "    exit(1);",
    "\x7d",
    ""]

def shiftRoutine (config : Config) : String :=
  let n := toString config.cellCount
  let body := match config.bounds with
    | .wrap => [
      "    long long q = ((long long)p + d) % " ++ n ++ "LL;",
      "    p = (size_t)(q < 0 ? q + " ++ n ++ "LL : q);"]
    | .fatal => [
      "    long long q = (long long)p + d;",
      "    if (q < 0) bounds(\"the data pointer moved below cell 0\");",
      "    if (q >= " ++ n ++ "LL) bounds(\"the data pointer moved past the last cell\");",
      "    p = (size_t)q;"]
  linesOf (["static void shift(long long d) \x7b"] ++ body ++ ["\x7d", ""])

/-- A loop over cell indices that leaves with the first zero cell. -/
def searchLoop (range : String) : String :=
  "    for (size_t i = " ++ range ++ ") if (tape[i] == 0) \x7b p = i; return; \x7d"

def scanRoutines (config : Config) : String :=
  let n := toString config.cellCount
  let rightHit := match config.width with
    | .eight => [
      "    cell *z = memchr(tape + p, 0, " ++ n ++ " - p);",
      "    if (z) \x7b p = (size_t)(z - tape); return; \x7d"]
    | _ => [searchLoop ("p; i < " ++ n ++ "; i++")]
  let leftHit := [searchLoop "p + 1; i-- > 0;"]
  let noZero := "    bounds(\"no cell on the tape is zero\");"
  let (rightMiss, leftMiss) := match config.bounds with
    | .wrap => ([searchLoop "0; i < p; i++", noZero],
      [searchLoop (n ++ "; i-- > p + 1;"), noZero])
    | .fatal => (["    bounds(\"the data pointer moved past the last cell\");"],
      ["    bounds(\"the data pointer moved below cell 0\");"])
  linesOf (["static void scan_right(void) \x7b"] ++ rightHit ++ rightMiss ++ ["\x7d", "",
    "static void scan_left(void) \x7b"] ++ leftHit ++ leftMiss ++ ["\x7d", ""])

/-- Writes a code point as UTF-8, or U+FFFD if it is no scalar value. -/
def putRoutine : String :=
  linesOf [
    "static void put(cell c) \x7b",
    "    uint32_t u = (uint32_t)c;",
    "    if (u > 0x10FFFF || (u >= 0xD800 && u <= 0xDFFF)) u = 0xFFFD;",
    "    if (u < 0x80) \x7b",
    "        putchar((int)u);",
    "    \x7d else if (u < 0x800) \x7b",
    "        putchar((int)(0xC0 | (u >> 6)));",
    "        putchar((int)(0x80 | (u & 0x3F)));",
    "    \x7d else if (u < 0x10000) \x7b",
    "        putchar((int)(0xE0 | (u >> 12)));",
    "        putchar((int)(0x80 | ((u >> 6) & 0x3F)));",
    "        putchar((int)(0x80 | (u & 0x3F)));",
    "    \x7d else \x7b",
    "        putchar((int)(0xF0 | (u >> 18)));",
    "        putchar((int)(0x80 | ((u >> 12) & 0x3F)));",
    "        putchar((int)(0x80 | ((u >> 6) & 0x3F)));",
    "        putchar((int)(0x80 | (u & 0x3F)));",
    "    \x7d",
    "\x7d",
    ""]

/-- Reads one UTF-8 character; the end of the input reads as 0. -/
def getRoutine : String :=
  linesOf [
    "static cell get(void) \x7b",
    "    fflush(stdout);",
    "    int c = getchar();",
    "    if (c == EOF) return 0;",
    "    uint32_t u = (uint32_t)c;",
    "    int extra = 0;",
    "    if (u >= 0xF0) \x7b u &= 0x07; extra = 3; \x7d",
    "    else if (u >= 0xE0) \x7b u &= 0x0F; extra = 2; \x7d",
    "    else if (u >= 0xC0) \x7b u &= 0x1F; extra = 1; \x7d",
    "    while (extra-- > 0 && (c = getchar()) != EOF) u = (u << 6) | ((uint32_t)c & 0x3F);",
    "    return (cell)u;",
    "\x7d",
    ""]

def opening (config : Config) : String :=
  declarations config ++ boundsRoutine ++ shiftRoutine config ++ scanRoutines config ++
    putRoutine ++ getRoutine ++ "int main(void) \x7b\n"

def addition (delta : Int) (width : CellWidth) : String :=
  match width with
  | .thirtyTwo =>
    "tape[p] = (cell)((uint32_t)tape[p] + " ++ toString (unsignedDelta delta width) ++ "u);"
  | width => "tape[p] += " ++ toString (unsignedDelta delta width) ++ ";"

def fragment (i : Instruction) (config : Config) : String :=
  match i with
  | .op (.move offset) => "shift(" ++ decimal offset ++ ");"
  | .op (.add delta) => addition delta config.width
  | .op .output => "put(tape[p]);"
  | .op .input => "tape[p] = get();"
  | .op .clear => "tape[p] = 0;"
  | .op (.scan .left) => "scan_left();"
  | .op (.scan .right) => "scan_right();"
  | .op .breakpoint => "/* breakpoint */"
  | .loopStart _ => "while (tape[p]) \x7b"
  | .loopEnd _ => "\x7d"

end TargetC

def Target.c : Target where
  name := "C"
  extension := "c"
  opening := TargetC.opening
  closing _ := "    fflush(stdout);\n    return 0;\n\x7d\n"
  fragment := TargetC.fragment

end TapeLang
